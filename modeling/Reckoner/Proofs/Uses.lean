import Reckoner.Proofs.Replacement

/- What a line sees of the variables of its session: the ones that it reads, which its tokens tell.
   The name of a function before a bracket is none of them, and neither is the name that the line
   assigns to. Sessions that agree on what a line reads answer it alike and change alike. -/
namespace Reckoner
open Grammar Token

def Tree.variables : Tree → List String
  | number _ => []
  | name x => [x]
  | call _ argument => argument.variables
  | unary _ operand => operand.variables
  | binary _ left right => left.variables ++ right.variables
  | assign _ value => value.variables

namespace Token

/-- The variables that tokens read. `first` says that they begin their line. -/
def used (first : Bool) : List Token → List String
  | [] => []
  | token :: rest =>
    (if isUse token.lexeme first token rest then [token.lexeme] else []) ++ used false rest

/-- A line that is not scanned reads nothing. -/
def usedBy (line : String) : List String :=
  match ofLine line with
  | .error _ => []
  | .ok tokens => used true tokens

theorem used_other (first : Bool) {token : Token} (other : token.kind ≠ .identifier)
    (rest : List Token) : used first (token :: rest) = used false rest := by
  have differs : token ≠ ⟨.identifier, token.lexeme⟩ := fun same => other (congrArg kind same)
  simp [used, isUse, differs]

theorem used_function (first : Bool) (token : Token) {rest : List Token}
    (opening : Kind.next rest = .bracketOpen) : used first (token :: rest) = used false rest := by
  simp [used, isUse, opening]

theorem used_target (token : Token) {rest : List Token} (equal : Kind.next rest = .equal) :
    used true (token :: rest) = used false rest := by
  simp [used, isUse, equal]

theorem used_first (token : Token) {rest : List Token} (noEqual : Kind.next rest ≠ .equal) :
    used true (token :: rest) = used false (token :: rest) := by
  simp [used, isUse, noEqual]

theorem used_enclosed {opening closing : Token} {xs : List Token} {names : List String}
    (first : opening.kind = .bracketOpen) (last : closing.kind = .bracketClose)
    (inside : ∀ rest, Kind.next rest ≠ .bracketOpen →
      used false (xs ++ rest) = names ++ used false rest) (rest : List Token) :
    used false (opening :: (xs ++ [closing]) ++ rest) = names ++ used false rest := by
  have openingOther : opening.kind ≠ .identifier := by simp [first]
  have closingOther : closing.kind ≠ .identifier := by simp [last]
  have closes : Kind.next (closing :: rest) ≠ .bracketOpen := by simp [Kind.next, last]
  rw [List.cons_append, List.append_assoc, List.singleton_append, used_other _ openingOther,
    inside _ closes, used_other _ closingOther]

end Token

namespace Grammar

theorem used_of_derives {phrase : Phrase} {xs : List Token} {tree : Tree}
    (derives : Derives phrase xs tree) (rest : List Token)
    (next : Kind.next rest ≠ .bracketOpen) :
    used false (xs ++ rest) = tree.variables ++ used false rest := by
  -- a bracket behind the phrase would make a function of a name at its end
  induction derives generalizing rest with
  | unsigned _ ih => exact ih rest next
  | @signed token xs op tree sign _ ih =>
    have other : token.kind ≠ .identifier := fun name => sign_not_word sign (.inr name)
    rw [List.cons_append, used_other _ other]
    exact ih rest next
  | single _ _ ih => exact ih rest next
  | @joined _ _ token xs ys _ left right _ _ joint _ leftIh rightIh =>
    have other : token.kind ≠ .identifier := fun name => joint_not_word joint (.inr name)
    rw [List.append_assoc, List.cons_append, leftIh (token :: (ys ++ rest)) (joint_kind joint).2.1,
      used_other _ other, rightIh rest next, ← List.append_assoc]
    rfl
  | number => exact used_other _ (by simp) rest
  | @name lexeme => simp [used, isUse, next, Tree.variables]
  | @call lexeme opening closing xs tree _ first last _ ih =>
    rw [List.cons_append, used_function _ _ (by simpa [Kind.next] using first)]
    exact used_enclosed first last ih rest
  | bracketed first last _ ih => exact used_enclosed first last ih rest

theorem used_of_statement {words : List Token} {tree : Tree} (statement : Statement words tree) :
    used true (words ++ [lineEnd]) = tree.variables := by
  have atEnd : Kind.next [lineEnd] ≠ .bracketOpen := by decide
  cases statement with
  | expression derives =>
    have whole := used_of_derives derives [lineEnd] atEnd
    have inner := derives_inner derives
    rw [used_other _ (by decide), used, List.append_nil] at whole
    rw [← whole]
    cases words with
    | nil => rfl
    | cons token rest =>
      apply used_first token
      cases rest with
      | nil => decide
      | cons second rest => exact (inner second (by simp)).2
  | @assignment lexeme equal xs tree sign derives =>
    have equalOther : equal.kind ≠ .identifier := by simp [sign]
    have value := used_of_derives derives [lineEnd] atEnd
    rw [used_other _ (by decide), used, List.append_nil] at value
    rw [List.cons_append, List.cons_append, used_target _ (by simpa [Kind.next] using sign),
      used_other _ equalOther, value]
    rfl

end Grammar

theorem used_by_of_reading {line : String} {tokens : List Token} {tree : Tree}
    (read : Reading.ofLine line = .ok ⟨tokens, tree⟩) : usedBy line = tree.variables := by
  obtain ⟨words, rfl, spread, statement, _⟩ := (reading_iff _ _ _).mp read
  have scanned : ofLine line = .ok (words ++ [lineEnd]) := scan_of_spread spread
  simp only [usedBy, scanned]
  exact used_of_statement statement

namespace Environment

/-- Two sessions with the same constants and functions that hold the same under these names: the
same value, or none. -/
structure Agree (names : List String) (left right : Environment) : Prop where
  constants : ∀ x, left.constants.get? x = right.constants.get? x
  functions : ∀ f, left.functions.get? f = right.functions.get? f
  bindings : ∀ x ∈ names, left.bindings.get? x = right.bindings.get? x

def named (env : Environment) (result : Result) : Environment :=
  match result.name with
  | none => env
  | some x => { env with bindings := env.bindings.insert x result.value }

section Agree

variable {names : List String} {left right : Environment}

theorem resolve_agree (agree : left.Agree names right) {x : String} (member : x ∈ names) :
    left.resolve x = right.resolve x := by
  simp only [resolve, agree.bindings x member, agree.constants x]

theorem apply_agree (agree : left.Agree names right) (f : String) :
    left.apply f = right.apply f := by
  funext argument
  simp only [apply, agree.functions f]

theorem assign_agree (agree : left.Agree names right) (x : String) (value : Float) :
    ∃ outcome : Except Fault Result,
      (left.assign x value).map (fun changed => (⟨some x, value⟩, changed)) =
        outcome.map (fun result => (result, left.named result)) ∧
      (right.assign x value).map (fun changed => (⟨some x, value⟩, changed)) =
        outcome.map (fun result => (result, right.named result)) := by
  have same : left.constants.contains x = right.constants.contains x := by
    rw [Table.contains_eq_isSome, Table.contains_eq_isSome, agree.constants x]
  unfold assign
  rw [same]
  by_cases constant : right.constants.contains x
  · rw [if_pos constant, if_pos constant]
    exact ⟨.error (.constantTarget x), rfl, rfl⟩
  · rw [if_neg constant, if_neg constant]
    exact ⟨.ok ⟨some x, value⟩, rfl, rfl⟩

theorem eval_agree (agree : left.Agree names right) {tree : Tree}
    (within : ∀ x ∈ tree.variables, x ∈ names) : tree.eval left = tree.eval right := by
  induction tree with
  | number _ => rfl
  | name x => exact resolve_agree agree (within x List.mem_cons_self)
  | call f argument ih =>
    have inside := ih within
    have applied := apply_agree agree f
    simp only [Tree.eval, inside, applied]
  | unary op operand ih =>
    have inside := ih within
    simp only [Tree.eval, inside]
  | binary op first second firstIh secondIh =>
    obtain ⟨before, behind⟩ := List.forall_mem_append.mp within
    have earlier := firstIh before
    have later := secondIh behind
    simp only [Tree.eval, earlier, later]
  | assign x value _ => rfl

/-- Sessions that agree on what a tree reads come to the same outcome, and a named result is all
that either of them changes by. -/
theorem execute_agree {line : String} {tokens : List Token} {tree : Tree}
    (read : Reading.ofLine line = .ok ⟨tokens, tree⟩) (agree : left.Agree tree.variables right) :
    ∃ outcome : Except Fault Result,
      left.execute tree = outcome.map (fun result => (result, left.named result)) ∧
      right.execute tree = outcome.map (fun result => (result, right.named result)) := by
  obtain ⟨words, rfl, _, statement, nested⟩ := (reading_iff _ _ _).mp read
  cases statement with
  | expression derives =>
    rw [execute_expression left derives nested, execute_expression right derives nested,
      eval_agree agree fun x member => member]
    cases tree.eval right with
    | error fault => exact ⟨.error fault, rfl, rfl⟩
    | ok value => exact ⟨.ok ⟨none, value⟩, rfl, rfl⟩
  | @assignment x equal _ inner sign derives =>
    have inside := nested_assigned sign nested
    have same : inner.eval left = inner.eval right := eval_agree agree fun x member => member
    rw [execute_assignment left x derives inside, execute_assignment right x derives inside, same]
    cases inner.eval right with
    | error fault => exact ⟨.error fault, rfl, rfl⟩
    | ok value => exact assign_agree agree x value

theorem step_agree {line : String} (agree : left.Agree (usedBy line) right) :
    (left.step line).answer = (right.step line).answer ∧
      ((left.step line).environment = left ∧ (right.step line).environment = right ∨
        ∃ x value, (left.step line).answer = .result ⟨some x, value⟩ ∧
          (left.step line).environment =
            { left with bindings := left.bindings.insert x value } ∧
          (right.step line).environment =
            { right with bindings := right.bindings.insert x value }) := by
  cases read : Reading.ofLine line with
  | error refusal =>
    obtain ⟨leftAnswer, leftAfter⟩ := step_of_refusal left read
    obtain ⟨rightAnswer, rightAfter⟩ := step_of_refusal right read
    exact ⟨leftAnswer.trans rightAnswer.symm, .inl ⟨leftAfter, rightAfter⟩⟩
  | ok reading =>
    obtain ⟨tokens, tree⟩ := reading
    rw [used_by_of_reading read] at agree
    obtain ⟨outcome, leftRun, rightRun⟩ := execute_agree read agree
    obtain ⟨leftAnswer, leftAfter⟩ := step_of_reading left read
    obtain ⟨rightAnswer, rightAfter⟩ := step_of_reading right read
    rw [leftRun] at leftAnswer leftAfter
    rw [rightRun] at rightAnswer rightAfter
    refine ⟨by rw [leftAnswer, rightAnswer]; cases outcome <;> rfl, ?_⟩
    rcases outcome with fault | ⟨_ | x, value⟩
    · exact .inl ⟨leftAfter, rightAfter⟩
    · exact .inl ⟨leftAfter, rightAfter⟩
    · exact .inr ⟨x, value, leftAnswer, leftAfter, rightAfter⟩

theorem agree_insert (agree : left.Agree names right) (x : String) (value : Float) :
    Agree names { left with bindings := left.bindings.insert x value }
      { right with bindings := right.bindings.insert x value } := by
  refine ⟨agree.constants, agree.functions, fun y member => ?_⟩
  simp only [Table.get_insert, agree.bindings y member]

theorem steps_agree {lines : List String} (agree : left.Agree names right)
    (within : ∀ line ∈ lines, ∀ x ∈ usedBy line, x ∈ names) :
    (left.steps lines).map Step.answer = (right.steps lines).map Step.answer := by
  induction lines generalizing left right with
  | nil => rfl
  | cons line lines ih =>
    obtain ⟨here, later⟩ := List.forall_mem_cons.mp within
    have reads : left.Agree (usedBy line) right :=
      ⟨agree.constants, agree.functions, fun x member => agree.bindings x (here x member)⟩
    obtain ⟨answer, change⟩ := step_agree reads
    have after : (left.step line).environment.Agree names (right.step line).environment := by
      rcases change with ⟨leftAfter, rightAfter⟩ | ⟨x, value, _, leftAfter, rightAfter⟩
      · rw [leftAfter, rightAfter]
        exact agree
      · rw [leftAfter, rightAfter]
        exact agree_insert agree x value
    rw [steps, steps, List.map_cons, List.map_cons, answer, ih after later]

theorem agree_of_unused (env : Environment) {x : String} (unused : x ∉ names) (value : Float) :
    Agree names { env with bindings := env.bindings.insert x value } env := by
  refine ⟨fun _ => rfl, fun _ => rfl, fun y member => ?_⟩
  have differs : y ≠ x := fun same => unused (same ▸ member)
  rw [Table.get_insert, if_neg differs]

end Agree

/-- Sessions that agree on the variables that a line reads give it the same answer, be it a value or
an error, and change by the same binding or not at all; and so on for the lines after it. What a
line reads are the variables of its tree: a variable with the name of a function counts for no call
of that function, and the old value of an assigned name counts only if it is read for the new
one. -/
theorem line_sees_what_it_reads :
    (∀ line left right, Agree (usedBy line) left right →
      (left.step line).answer = (right.step line).answer ∧
        ((left.step line).environment = left ∧ (right.step line).environment = right ∨
          ∃ x value, (left.step line).answer = .result ⟨some x, value⟩ ∧
            (left.step line).environment =
              { left with bindings := left.bindings.insert x value } ∧
            (right.step line).environment =
              { right with bindings := right.bindings.insert x value })) ∧
    (∀ lines left right, Agree (lines.flatMap usedBy) left right →
      (left.steps lines).map Step.answer = (right.steps lines).map Step.answer) ∧
    ∀ line tokens tree, Reading.ofLine line = .ok ⟨tokens, tree⟩ →
      usedBy line = tree.variables ∧
        ∀ (env : Environment) x value, x ∉ tree.variables →
          (Environment.step { env with bindings := env.bindings.insert x value } line).answer =
            (env.step line).answer := by
  refine ⟨fun line left right => step_agree, fun lines left right agree => ?_,
    fun line tokens tree read => ?_⟩
  · apply steps_agree agree
    intro line member x read
    exact List.mem_flatMap.mpr ⟨line, member, read⟩
  · have reads := used_by_of_reading read
    refine ⟨reads, fun env x value unused => ?_⟩
    rw [← reads] at unused
    exact (step_agree (agree_of_unused env unused value)).1

theorem function_name_assigned_alike :
    let left := { builtin with bindings := .ofList [("sin", 5), ("x", 1)] }
    let right := { builtin with bindings := .ofList [("x", 1), ("y", 7)] }
    left.bindings.get? "sin" ≠ right.bindings.get? "sin" ∧
      Agree (usedBy "sin = sin(x) + x") left right ∧
      (∃ value, (left.step "sin = sin(x) + x").answer = .result ⟨some "sin", value⟩ ∧
        (right.step "sin = sin(x) + x").answer = .result ⟨some "sin", value⟩ ∧
        (Environment.step { right with bindings := right.bindings.insert "sin" 2 }
          "sin = sin(x) + x").answer = .result ⟨some "sin", value⟩) ∧
      (left.steps ["sin = sin(x) + x", "x / z"]).map Step.answer =
        (right.steps ["sin = sin(x) + x", "x / z"]).map Step.answer := by
  intro left right
  let tree : Tree := .assign "sin" (.binary .add (.call "sin" (.name "x")) (.name "x"))
  obtain ⟨⟨tokens, _⟩, found, rfl⟩ : ∃ reading,
      (Reading.ofLine "sin = sin(x) + x").toOption = some reading ∧ reading.tree = tree :=
    Option.map_eq_some_iff.mp (by decide +kernel)
  have read := ok_of_toOption found
  have lines : ["sin = sin(x) + x", "x / z"].flatMap usedBy = ["x", "x", "x", "z"] := by
    decide +kernel
  have all : Agree ["x", "x", "x", "z"] left right :=
    ⟨fun _ => rfl, fun _ => rfl, by decide +kernel⟩
  have one : Agree (usedBy "sin = sin(x) + x") left right := by
    rw [used_by_of_reading read]
    exact ⟨all.constants, all.functions, by decide +kernel⟩
  obtain ⟨value, answer⟩ : ∃ value, (left.step "sin = sin(x) + x").answer =
      .result ⟨some "sin", value⟩ := by
    rw [(step_of_reading left read).1]
    exact ⟨_, rfl⟩
  have alike := (line_sees_what_it_reads.1 _ left right one).1
  have rebound := (line_sees_what_it_reads.2.2 _ _ _ read).2 right "sin" 2 (by decide)
  rw [answer] at alike
  rw [← alike] at rebound
  refine ⟨by decide +kernel, one, ⟨value, answer, alike.symm, rebound⟩, ?_⟩
  apply line_sees_what_it_reads.2.1
  rw [lines]
  exact all

end Environment
end Reckoner

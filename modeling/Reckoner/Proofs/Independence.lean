import Reckoner.Proofs.History
import Reckoner.Proofs.Uses

/- Lines that have nothing to do with each other: neither assigns a name that the other one reads or
   assigns. Which of them comes first makes no difference, whether they succeed or fail. -/
namespace Reckoner
open Token

namespace Tree

def target? : Tree → Option String
  | assign x _ => some x
  | _ => none

structure Independent (first second : Tree) : Prop where
  targets : ∀ x ∈ first.target?, x ∉ second.target?
  firstUnread : ∀ x ∈ first.target?, x ∉ second.variables
  secondUnread : ∀ x ∈ second.target?, x ∉ first.variables

theorem independent_symm {first second : Tree} (independent : first.Independent second) :
    second.Independent first where
  targets := fun x here there => independent.targets x there here
  firstUnread := independent.secondUnread
  secondUnread := independent.firstUnread

end Tree

/-- A line that cannot be read neither reads nor assigns anything. -/
def IndependentLines (first second : String) : Prop :=
  ∀ left right, Reading.ofLine first = .ok left → Reading.ofLine second = .ok right →
    left.tree.Independent right.tree

theorem independent_lines_symm {first second : String}
    (independent : IndependentLines first second) : IndependentLines second first :=
  fun left right leftRead rightRead =>
    Tree.independent_symm (independent right left rightRead leftRead)

namespace Environment

def noting (env : Environment) (answer : Answer) : Environment :=
  match answer.naming? with
  | none => env
  | some (x, value) => { env with bindings := env.bindings.insert x value }

theorem noting_of_none (env : Environment) {answer : Answer} (unnamed : answer.naming? = none) :
    env.noting answer = env := by
  simp only [noting, unnamed]

theorem noting_of_some (env : Environment) {answer : Answer} {x : String} {value : Float}
    (named : answer.naming? = some (x, value)) :
    env.noting answer = { env with bindings := env.bindings.insert x value } := by
  simp only [noting, named]

theorem step_noting (env : Environment) (line : String) :
    (env.step line).environment = env.noting (env.step line).answer := by
  rcases env.step_cases line with ⟨message, details, answer, left⟩ |
    ⟨tokens, tree, value, read, other, answer, left⟩ |
    ⟨tokens, x, inner, value, read, answer, left⟩
  · rw [left, answer, noting_of_none env rfl]
  · rw [left, answer, noting_of_none env rfl]
  · rw [left, answer, noting_of_some env rfl]

theorem target_of_naming {env : Environment} {line : String} {x : String} {value : Float}
    (named : (env.step line).answer.naming? = some (x, value)) :
    ∃ reading, Reading.ofLine line = .ok reading ∧ reading.tree.target? = some x := by
  rcases env.step_cases line with ⟨message, details, answer, left⟩ |
    ⟨tokens, tree, other, read, notAssigned, answer, left⟩ |
    ⟨tokens, y, inner, other, read, answer, left⟩
  · rw [answer] at named
    simp [Answer.naming?] at named
  · rw [answer] at named
    simp [Answer.naming?] at named
  · rw [answer] at named
    simp only [Answer.naming?, Option.some.injEq, Prod.mk.injEq] at named
    obtain ⟨rfl, rfl⟩ := named
    exact ⟨_, read, rfl⟩

theorem answer_of_unread (env : Environment) {x : String} (value : Float) {line : String}
    (unread : ∀ reading, Reading.ofLine line = .ok reading → x ∉ reading.tree.variables) :
    (Environment.step { env with bindings := env.bindings.insert x value } line).answer =
      (env.step line).answer := by
  cases read : Reading.ofLine line with
  | error refusal => rw [(step_of_refusal _ read).1, (step_of_refusal env read).1]
  | ok reading =>
    have unused := unread reading read
    rw [← used_by_of_reading read] at unused
    exact (step_agree (agree_of_unused env unused value)).1

theorem answer_after_independent (env : Environment) {first second : String}
    (independent : IndependentLines first second) :
    ((env.step first).environment.step second).answer = (env.step second).answer := by
  rw [step_noting]
  cases named : (env.step first).answer.naming? with
  | none => rw [noting_of_none env named]
  | some binding =>
    obtain ⟨x, value⟩ := binding
    obtain ⟨left, read, target⟩ := target_of_naming named
    rw [noting_of_some env named]
    apply answer_of_unread
    intro right rightRead
    exact (independent left right read rightRead).firstUnread x target

end Environment

namespace Table

variable {α : Type}

theorem get_insert_comm (table : Table α) {x y : String} (differs : x ≠ y) (a b : α)
    (name : String) :
    ((table.insert x a).insert y b).get? name = ((table.insert y b).insert x a).get? name := by
  simp only [get_insert]
  by_cases first : name = x
  · have second : name ≠ y := fun same => differs (first ▸ same)
    rw [if_neg second, if_pos first, if_pos first]
  · rw [if_neg first, if_neg first]

theorem contains_insert (table : Table α) (name x : String) (value : α) :
    (table.insert name value).contains x = (table.contains x || decide (x = name)) := by
  rw [contains_eq_isSome, contains_eq_isSome, get_insert]
  by_cases same : x = name <;> simp [same]

theorem names_insert_comm (table : Table α) {x y : String} (differs : x ≠ y) (a b : α) :
    ((table.insert x a).insert y b).names = ((table.insert y b).insert x a).names ∨
      table.contains x = false ∧ table.contains y = false ∧
        ((table.insert x a).insert y b).names = table.names ++ [x, y] ∧
        ((table.insert y b).insert x a).names = table.names ++ [y, x] := by
  have other : y ≠ x := differs.symm
  simp only [names_insert, contains_insert]
  cases known : table.contains x <;> cases knownToo : table.contains y <;>
    simp [differs, other]

end Table

namespace Environment

/-- Two environments with the same variables, constants and functions, whatever the order of the
variables. -/
def Same (left right : Environment) : Prop := ∀ names, left.Agree names right

theorem same_noting (env : Environment) {first second : Answer}
    (apart : ∀ x a y b, first.naming? = some (x, a) → second.naming? = some (y, b) → x ≠ y) :
    ((env.noting first).noting second).Same ((env.noting second).noting first) := by
  intro names
  cases named : first.naming? with
  | none =>
    rw [noting_of_none _ named, noting_of_none _ named]
    exact ⟨fun _ => rfl, fun _ => rfl, fun _ _ => rfl⟩
  | some binding =>
    obtain ⟨x, a⟩ := binding
    cases namedToo : second.naming? with
    | none =>
      rw [noting_of_none _ namedToo, noting_of_none _ namedToo]
      exact ⟨fun _ => rfl, fun _ => rfl, fun _ _ => rfl⟩
    | some binding =>
      obtain ⟨y, b⟩ := binding
      have differs := apart x a y b named namedToo
      rw [noting_of_some _ named, noting_of_some _ namedToo, noting_of_some _ namedToo,
        noting_of_some _ named]
      exact ⟨fun _ => rfl, fun _ => rfl,
        fun name _ => env.bindings.get_insert_comm differs a b name⟩

theorem names_noting_comm (env : Environment) {first second : Answer}
    (apart : ∀ x a y b, first.naming? = some (x, a) → second.naming? = some (y, b) → x ≠ y) :
    ((env.noting first).noting second).bindings.names =
        ((env.noting second).noting first).bindings.names ∨
      ∃ x y, env.bindings.contains x = false ∧ env.bindings.contains y = false ∧
        ((env.noting first).noting second).bindings.names = env.bindings.names ++ [x, y] ∧
        ((env.noting second).noting first).bindings.names = env.bindings.names ++ [y, x] := by
  cases named : first.naming? with
  | none =>
    rw [noting_of_none _ named, noting_of_none _ named]
    exact .inl rfl
  | some binding =>
    obtain ⟨x, a⟩ := binding
    cases namedToo : second.naming? with
    | none =>
      rw [noting_of_none _ namedToo, noting_of_none _ namedToo]
      exact .inl rfl
    | some binding =>
      obtain ⟨y, b⟩ := binding
      have differs := apart x a y b named namedToo
      rw [noting_of_some _ named, noting_of_some _ namedToo, noting_of_some _ namedToo,
        noting_of_some _ named]
      rcases env.bindings.names_insert_comm differs a b with alike | ⟨new, newToo, there, here⟩
      · exact .inl alike
      · exact .inr ⟨x, y, new, newToo, there, here⟩

theorem left_pair (env : Environment) (first second : String) :
    env.left (env.steps [first, second]) =
      (env.noting (env.step first).answer).noting
        ((env.step first).environment.step second).answer := by
  rw [← step_noting, ← step_noting]
  rfl

/-- The order of independent lines does not matter: each of them has the same answer first or
second, the same variables have the same values after both, and all lines that follow are answered
alike. Only two variables that both lines have brought in stand in another order. -/
theorem independent_lines_swap (env : Environment) (first second : String)
    (independent : IndependentLines first second) :
    let forth := env.steps [first, second]
    let back := env.steps [second, first]
    forth.map Step.answer = (back.map Step.answer).reverse ∧
      (∀ x, (env.left forth).bindings.get? x = (env.left back).bindings.get? x) ∧
      ((env.left forth).bindings.names = (env.left back).bindings.names ∨
        ∃ x y, env.bindings.contains x = false ∧ env.bindings.contains y = false ∧
          (env.left forth).bindings.names = env.bindings.names ++ [x, y] ∧
          (env.left back).bindings.names = env.bindings.names ++ [y, x]) ∧
      ∀ lines, ((env.left forth).steps lines).map Step.answer =
        ((env.left back).steps lines).map Step.answer := by
  intro forth back
  have secondAfter := answer_after_independent env independent
  have firstAfter := answer_after_independent env (independent_lines_symm independent)
  have forthLeft := left_pair env first second
  have backLeft := left_pair env second first
  rw [secondAfter] at forthLeft
  rw [firstAfter] at backLeft
  have apart : ∀ x a y b, (env.step first).answer.naming? = some (x, a) →
      (env.step second).answer.naming? = some (y, b) → x ≠ y := by
    rintro x a y b named namedToo rfl
    obtain ⟨left, read, target⟩ := target_of_naming named
    obtain ⟨right, readToo, targetToo⟩ := target_of_naming namedToo
    exact (independent left right read readToo).targets x target targetToo
  have same := same_noting env apart
  rw [← forthLeft, ← backLeft] at same
  refine ⟨?_, fun x => (same [x]).bindings x List.mem_cons_self, ?_, fun lines => ?_⟩
  · simp [forth, back, steps, secondAfter, firstAfter]
  · rw [forthLeft, backLeft]
    exact names_noting_comm env apart
  · exact steps_agree (same (lines.flatMap usedBy)) fun line member x read =>
      List.mem_flatMap.mpr ⟨line, member, read⟩

/-- Both lines call and read the same names, and each gives a value to the name of the function that
the other one calls. -/
theorem two_new_names_swapped :
    let env := { builtin with bindings := .ofList [("x", 2)] }
    let forth := env.steps ["cos = sin(x) / 0", "sin = cos(x) ^ x"]
    let back := env.steps ["sin = cos(x) ^ x", "cos = sin(x) / 0"]
    IndependentLines "cos = sin(x) / 0" "sin = cos(x) ^ x" ∧
      forth.map Step.answer = (back.map Step.answer).reverse ∧
      (env.left forth).bindings.names = ["x", "cos", "sin"] ∧
      (env.left back).bindings.names = ["x", "sin", "cos"] ∧
      (env.left forth).bindings.get? "sin" = (env.left back).bindings.get? "sin" ∧
      ((env.left forth).steps ["x = sin - cos", "q"]).map Step.answer =
        ((env.left back).steps ["x = sin - cos", "q"]).map Step.answer := by
  intro env forth back
  obtain ⟨left, leftRead, leftTree⟩ : ∃ reading,
      (Reading.ofLine "cos = sin(x) / 0").toOption = some reading ∧ reading.tree =
        .assign "cos" (.binary .div (.call "sin" (.name "x")) (Reader.literal "0")) :=
    Option.map_eq_some_iff.mp (by decide +kernel)
  obtain ⟨right, rightRead, rightTree⟩ : ∃ reading,
      (Reading.ofLine "sin = cos(x) ^ x").toOption = some reading ∧ reading.tree =
        .assign "sin" (.binary .pow (.call "cos" (.name "x")) (.name "x")) :=
    Option.map_eq_some_iff.mp (by decide +kernel)
  have independent : IndependentLines "cos = sin(x) / 0" "sin = cos(x) ^ x" := by
    intro first second firstRead secondRead
    rw [ok_of_toOption leftRead] at firstRead
    rw [ok_of_toOption rightRead] at secondRead
    cases firstRead
    cases secondRead
    rw [leftTree, rightTree]
    exact ⟨by decide, by decide, by decide⟩
  obtain ⟨answers, values, _, later⟩ := independent_lines_swap env _ _ independent
  exact ⟨independent, answers, by decide +kernel, by decide +kernel, values "sin", later _⟩

end Environment
end Reckoner

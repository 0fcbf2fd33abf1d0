import Reckoner.Proofs.Places

/- The boundary of errors: every line of every session is answered. Reading it comes to a tree or to
   a refusal, whatever its tokens are, and the trees that are read carry an operator of the right
   kind at every node and assign at the top only, so that their evaluation meets no node that it has
   no rule for. -/
namespace Reckoner
open Grammar Token

namespace Tree

/-- Signs stand before one operand, operators that have a level between two, and nothing is
assigned. -/
def IsExpression : Tree → Prop
  | number _ => True
  | name _ => True
  | call _ argument => argument.IsExpression
  | unary op operand => (op = .neg ∨ op = .pos) ∧ operand.IsExpression
  | binary op left right => op.level? ≠ none ∧ left.IsExpression ∧ right.IsExpression
  | assign .. => False

def IsStatement : Tree → Prop
  | assign _ value => value.IsExpression
  | tree => tree.IsExpression

end Tree

namespace Fault

def isInternal : Fault → Bool
  | notBinary _ => true
  | notUnary _ => true
  | misplacedAssignment _ => true
  | _ => false

end Fault

def Regular {α : Type} (outcome : Except Fault α) : Prop :=
  ∀ fault, outcome = .error fault → fault.isInternal = false

section Regular

variable {α β : Type}

theorem regular_ok (value : α) : Regular (.ok value) := by
  intro fault same
  cases same

theorem regular_error {fault : Fault} (known : fault.isInternal = false) :
    Regular (.error fault : Except Fault α) := by
  intro other same
  cases same
  exact known

theorem regular_bind {first : Except Fault α} {next : α → Except Fault β} (before : Regular first)
    (after : ∀ value, Regular (next value)) : Regular (first >>= next) := by
  cases first with
  | error fault => exact regular_error (before fault rfl)
  | ok value => exact after value

theorem regular_map {outcome : Except Fault α} (regular : Regular outcome) (f : α → β) :
    Regular (outcome.map f) := by
  cases outcome with
  | error fault => exact regular_error (regular fault rfl)
  | ok value => exact regular_ok (f value)

theorem regular_resolve (env : Environment) (x : String) : Regular (env.resolve x) := by
  unfold Environment.resolve
  split
  · exact regular_ok _
  · split
    · exact regular_ok _
    · exact regular_error rfl

theorem regular_apply (env : Environment) (f : String) (argument : Float) :
    Regular (env.apply f argument) := by
  unfold Environment.apply
  split
  · exact regular_error rfl
  · split
    · exact regular_ok _
    · exact regular_error rfl

theorem regular_assign (env : Environment) (x : String) (value : Float) :
    Regular (env.assign x value) := by
  unfold Environment.assign
  split
  · exact regular_error rfl
  · exact regular_ok _

theorem regular_combine {op : Op} (binary : op.level? ≠ none) (a b : Float) :
    Regular (op.combine a b) := by
  cases op with
  | neg => exact absurd rfl binary
  | pos => exact absurd rfl binary
  | _ => exact regular_ok _

theorem regular_sign {op : Op} (sign : op = .neg ∨ op = .pos) (a : Float) :
    Regular (op.applySign a) := by
  rcases sign with rfl | rfl
  · exact regular_ok _
  · exact regular_ok _

theorem regular_eval (env : Environment) {tree : Tree} (expression : tree.IsExpression) :
    Regular (tree.eval env) := by
  induction tree with
  | number value => exact regular_ok value
  | name x => exact regular_resolve env x
  | call f argument ih => exact regular_bind (ih expression) (regular_apply env f)
  | unary op operand ih =>
    obtain ⟨sign, inside⟩ := expression
    exact regular_bind (ih inside) (regular_sign sign)
  | binary op left right leftIh rightIh =>
    obtain ⟨binary, first, second⟩ := expression
    apply regular_bind (leftIh first)
    intro a
    exact regular_bind (rightIh second) (regular_combine binary a)
  | assign x value ih => exact absurd expression id

end Regular

namespace Grammar

theorem derives_is_expression {phrase : Phrase} {xs : List Token} {tree : Tree}
    (derives : Derives phrase xs tree) : tree.IsExpression := by
  induction derives with
  | unsigned _ ih => exact ih
  | signed sign _ ih => exact ⟨sign_op sign, ih⟩
  | single _ _ ih => exact ih
  | joined _ _ joint _ leftIh rightIh =>
    obtain ⟨_, own, known, _⟩ := joint_level joint
    exact ⟨by simp [known], leftIh, rightIh⟩
  | number => trivial
  | name => trivial
  | call _ _ _ _ ih => exact ih
  | bracketed _ _ _ ih => exact ih

theorem statement_is_statement {words : List Token} {tree : Tree}
    (statement : Statement words tree) : tree.IsStatement := by
  cases statement with
  | expression derives =>
    have expression := derives_is_expression derives
    cases tree with
    | assign => exact absurd expression id
    | _ => exact expression
  | assignment _ derives => exact derives_is_expression derives

end Grammar

namespace Environment

theorem regular_execute (env : Environment) {words : List Token} {tree : Tree}
    (statement : Statement words tree) (nested : Nested Tree.nestingLimit words) :
    Regular (env.execute tree) := by
  cases statement with
  | expression derives =>
    rw [execute_expression env derives nested]
    exact regular_map (regular_eval env (derives_is_expression derives)) _
  | @assignment x equal _ value sign derives =>
    rw [execute_assignment env x derives (nested_assigned sign nested)]
    apply regular_bind (regular_eval env (derives_is_expression derives))
    intro value
    exact regular_map (regular_assign env x value) _

end Environment

inductive Escape
  | mishap (mishap : Mishap)
  | fault (fault : Fault)
  deriving DecidableEq, Repr

namespace Environment

/-- A step that reads by places and answers only what lines may be told. -/
def checkedStep (env : Environment) (line : String) : Except Escape (Answer × Environment) :=
  match Token.ofLine line with
  | .error fault => .ok ((Refusal.unexpected fault).answer line, env)
  | .ok tokens =>
    match Walker.statement tokens Tree.nestingLimit with
    | .error (.mishap mishap) => .error (.mishap mishap)
    | .error (.rejected cause place) => .ok ((Refusal.rejected tokens cause place).answer line, env)
    | .error .tooDeep => .ok ((Refusal.tooDeep tokens).answer line, env)
    | .ok tree =>
      match env.execute tree with
      | .error fault =>
        if fault.isInternal then .error (.fault fault) else .ok (.error fault.message none, env)
      | .ok (result, changed) => .ok (.result result, changed)

def checkedSteps (env : Environment) : List String → Except Escape (List Answer)
  | [] => .ok []
  | line :: lines =>
    env.checkedStep line >>= fun done => (done.2.checkedSteps lines).map (done.1 :: ·)

theorem checked_step_eq (env : Environment) (line : String) :
    env.checkedStep line = .ok ((env.step line).answer, (env.step line).environment) := by
  cases scanned : Token.ofLine line with
  | error fault =>
    have read : Reading.ofLine line = .error (.unexpected fault) := by
      simp only [Reading.ofLine, scanned]
    obtain ⟨answer, after⟩ := step_of_refusal env read
    simp only [checkedStep, scanned, answer, after]
  | ok tokens =>
    have shaped := shaped_of_line scanned
    have walked := Walker.statement_follows (ended_of_line scanned) shaped Tree.nestingLimit
    cases parsed : Reader.statement Tree.nestingLimit tokens with
    | error failure =>
      rw [parsed] at walked
      cases failure with
      | rejected cause rest =>
        have read : Reading.ofLine line =
            .error (.rejected tokens cause (Failure.index tokens rest)) := by
          simp only [Reading.ofLine, scanned, Tree.ofTokens, parsed]
        obtain ⟨answer, after⟩ := step_of_refusal env read
        simp only [checkedStep, scanned, walked, placed, Failure.stop, answer, after]
      | tooDeep =>
        have read : Reading.ofLine line = .error (.tooDeep tokens) := by
          simp only [Reading.ofLine, scanned, Tree.ofTokens, parsed]
        obtain ⟨answer, after⟩ := step_of_refusal env read
        simp only [checkedStep, scanned, walked, placed, Failure.stop, answer, after]
    | ok tree =>
      rw [parsed] at walked
      have read : Reading.ofLine line = .ok ⟨tokens, tree⟩ := by
        simp only [Reading.ofLine, scanned, Tree.ofTokens, parsed]
      obtain ⟨statement, nested⟩ := Reader.statement_sound shaped parsed
      have regular := regular_execute env statement nested
      obtain ⟨answer, after⟩ := step_of_reading env read
      simp only [checkedStep, scanned, walked, placed, answer, after]
      cases executed : env.execute tree with
      | ok done => rfl
      | error fault =>
        have known := regular fault executed
        simp [known, told, Environment.after]

theorem checked_steps_eq (env : Environment) (lines : List String) :
    env.checkedSteps lines = .ok ((env.steps lines).map Step.answer) := by
  induction lines generalizing env with
  | nil => rfl
  | cons line lines ih =>
    rw [checkedSteps, checked_step_eq, steps]
    change (checkedSteps _ lines).map _ = _
    rw [ih]
    rfl

end Environment

/-- No line escapes the boundary of errors. Reading tokens that end the line, be it in the middle as
well, looks at no place outside of them and meets no operator without a level and no number that is
none; it comes to a tree, to a cause at the place of one of the tokens, or to too many brackets. A
tree that is read assigns at the top only and has an operator of the right kind at every node, so
evaluating it never meets a node without a rule. So in every session every line is answered. -/
theorem every_line_answered :
    (∀ tokens room, Ended tokens → (∀ token ∈ tokens, token.Shaped) →
      Walker.statement tokens room = placed tokens (Reader.statement room tokens) ∧
        (∀ mishap, Walker.statement tokens room ≠ .error (.mishap mishap)) ∧
          ∀ cause place, Walker.statement tokens room = .error (.rejected cause place) →
            place < tokens.length) ∧
    (∀ tokens tree, (∀ token ∈ tokens, token.Shaped) → Tree.ofTokens tokens = .ok tree →
      tree.IsStatement ∧
        ∀ (env : Environment) fault, env.execute tree = .error fault → fault.isInternal = false) ∧
    ∀ (env : Environment) lines,
      env.checkedSteps lines = .ok ((env.steps lines).map Step.answer) := by
  refine ⟨fun tokens room ended shaped => ?_, fun tokens tree shaped read => ?_,
    Environment.checked_steps_eq⟩
  · have follows := Walker.statement_follows ended shaped room
    rw [follows]
    refine ⟨rfl, placed_not_mishap tokens _, fun cause place rejected => ?_⟩
    obtain ⟨rest, read, rfl⟩ := placed_rejected rejected
    exact rejected_inside ended read
  · obtain ⟨statement, nested⟩ := Reader.statement_sound shaped read
    exact ⟨statement_is_statement statement, fun env => env.regular_execute statement nested⟩

/-- Behind an opening bracket the end of the line is where an operand is missed, although tokens
follow it; and what follows the end of a whole expression is not read. -/
theorem end_amid_tokens :
    let cut : List Token :=
      [⟨.identifier, "f"⟩, ⟨.bracketOpen, "("⟩, lineEnd, ⟨.caret, "^"⟩, lineEnd]
    let whole : List Token :=
      [⟨.identifier, "x"⟩, ⟨.equal, "="⟩, ⟨.minus, "-"⟩, ⟨.identifier, "y"⟩, lineEnd,
        ⟨.bracketOpen, "("⟩, lineEnd]
    Ended cut ∧ (∀ token ∈ cut, token.Shaped) ∧
      Walker.statement cut Tree.nestingLimit = .error (.rejected .operandMissing 2) ∧
      2 < cut.length ∧
      Tree.ofTokens whole = .ok (.assign "x" (.unary .neg (.name "y"))) ∧
      Tree.IsStatement (.assign "x" (.unary .neg (.name "y"))) ∧
      (∀ fault, Environment.builtin.execute (.assign "x" (.unary .neg (.name "y"))) =
        .error fault → fault.isInternal = false) ∧
      ∃ answers, Environment.builtin.checkedSteps ["f(2", "x = -y", "1 / 0 ^ x"] = .ok answers ∧
        answers.length = 3 := by
  intro cut whole
  have letter : ∀ {l : Char}, l.isAlpha → Shape .identifier ([l] ++ []) := fun here =>
    .identifier (by simp) (List.forall_mem_singleton.mpr here) (List.forall_mem_nil _)
  have cutShaped : ∀ token ∈ cut, token.Shaped := by
    simp only [cut, List.forall_mem_cons]
    exact ⟨.inr (letter rfl), .inr (.symbol rfl), .inl rfl, .inr (.symbol rfl), .inl rfl,
      List.forall_mem_nil _⟩
  have wholeShaped : ∀ token ∈ whole, token.Shaped := by
    simp only [whole, List.forall_mem_cons]
    exact ⟨.inr (letter rfl), .inr (.symbol rfl), .inr (.symbol rfl),
      .inr (letter rfl), .inl rfl, .inr (.symbol rfl), .inl rfl, List.forall_mem_nil _⟩
  have ended : Ended cut := rfl
  obtain ⟨walked, _, inside⟩ := every_line_answered.1 cut Tree.nestingLimit ended cutShaped
  have rejected : Walker.statement cut Tree.nestingLimit =
      .error (.rejected .operandMissing 2) := by
    rw [walked]
    rfl
  have read : Tree.ofTokens whole = .ok (.assign "x" (.unary .neg (.name "y"))) :=
    ok_of_toOption (by decide +kernel)
  obtain ⟨shape, regular⟩ := every_line_answered.2.1 whole _ wholeShaped read
  refine ⟨ended, cutShaped, rejected, inside _ _ rejected, read, shape,
    regular Environment.builtin, _, every_line_answered.2.2 _ _, ?_⟩
  simp [Environment.steps]

end Reckoner

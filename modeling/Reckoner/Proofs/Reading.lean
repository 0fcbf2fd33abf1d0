import Reckoner.Proofs.Acceptance
import Reckoner.Proofs.Evaluation
import Reckoner.Session

/- What a line is read as, and what a step with it does: the one in terms of derivations, the other
   in terms of values by recursion. -/
namespace Reckoner
open Grammar Token

theorem body_of_spread {words : List Token} {cs : List Char} (spread : Spread words cs) :
    body (words ++ [lineEnd]) = words := by
  have noEnd : ∀ token ∈ words, token.kind ≠ .lineEnd := fun token member =>
    shape_not_end (shaped_of_spread spread token member)
  rw [body_append noEnd, body_of_next rfl, List.append_nil]

/-- A line is read as a tree exactly if it spreads out tokens that derive it, with no more brackets
within each other than may be open. -/
theorem reading_iff (line : String) (tokens : List Token) (tree : Tree) :
    Reading.ofLine line = .ok ⟨tokens, tree⟩ ↔
      ∃ words, tokens = words ++ [lineEnd] ∧ Spread words line.toList ∧ Statement words tree ∧
        Nested Tree.nestingLimit words := by
  constructor
  · intro read
    simp only [Reading.ofLine] at read
    split at read
    · simp at read
    · rename_i scanned
      split at read
      · simp at read
      · simp at read
      · rename_i parsed
        cases read
        have shaped := shaped_of_line scanned
        obtain ⟨words, rfl, spread⟩ := (of_line_iff _ _).mp scanned
        have derived := Reader.statement_sound shaped parsed
        rw [body_of_spread spread] at derived
        exact ⟨words, rfl, spread, derived.1, derived.2⟩
  · rintro ⟨words, rfl, spread, statement, nested⟩
    have scanned : Token.ofLine line = .ok (words ++ [lineEnd]) := scan_of_spread spread
    have eq := body_of_statement statement
    have parsed : Tree.ofTokens (words ++ [lineEnd]) = .ok tree :=
      Reader.statement_complete ended_append (by rwa [eq]) (by rwa [eq])
    simp only [Reading.ofLine, scanned, parsed]

namespace Environment

theorem execute_expression (env : Environment) {words : List Token} {tree : Tree}
    (derives : Derives .expression words tree) (nested : Nested Tree.nestingLimit words) :
    env.execute tree = (tree.eval env).map fun value => (⟨none, value⟩, env) := by
  have value := Tree.value_of_derives env derives nested
  unfold execute
  split
  · exact absurd rfl (derives_not_assign derives _ _)
  · rw [value]
    cases tree.eval env <;> rfl

theorem execute_assignment (env : Environment) (x : String) {words : List Token} {tree : Tree}
    (derives : Derives .expression words tree) (nested : Nested Tree.nestingLimit words) :
    env.execute (.assign x tree) =
      tree.eval env >>= fun value =>
        (env.assign x value).map fun changed => (⟨some x, value⟩, changed) := by
  have value := Tree.value_of_derives env derives nested
  simp only [execute, value]
  cases tree.eval env with
  | error fault => rfl
  | ok value =>
    simp only [bind, Except.bind]
    cases env.assign x value <;> rfl

def told : Except Fault (Result × Environment) → Answer
  | .error fault => .error fault.message none
  | .ok (result, _) => .result result

def after (env : Environment) : Except Fault (Result × Environment) → Environment
  | .error _ => env
  | .ok (_, changed) => changed

theorem step_of_reading (env : Environment) {line : String} {tokens : List Token} {tree : Tree}
    (read : Reading.ofLine line = .ok ⟨tokens, tree⟩) :
    (env.step line).answer = told (env.execute tree) ∧
      (env.step line).environment = env.after (env.execute tree) := by
  simp only [step, read, stepTree]
  cases env.execute tree <;> exact ⟨rfl, rfl⟩

theorem step_of_refusal (env : Environment) {line : String} {refusal : Refusal}
    (read : Reading.ofLine line = .error refusal) :
    (env.step line).answer = refusal.answer line ∧ (env.step line).environment = env := by
  simp only [step, read]
  exact ⟨trivial, trivial⟩

theorem execute_cases (env : Environment) (tree : Tree) :
    (∃ fault, env.execute tree = .error fault) ∨
      (∃ value, (∀ x inner, tree ≠ .assign x inner) ∧
        env.execute tree = .ok (⟨none, value⟩, env)) ∨
      ∃ x inner value, tree = .assign x inner ∧ env.execute tree =
        .ok (⟨some x, value⟩, { env with bindings := env.bindings.insert x value }) := by
  unfold execute
  split
  · rename_i x inner
    cases inner.value env Tree.depthLimit with
    | error fault => exact .inl ⟨fault, rfl⟩
    | ok value =>
      by_cases constant : env.constants.contains x
      · exact .inl ⟨.constantTarget x, by simp only [assign, if_pos constant]⟩
      · exact .inr (.inr ⟨x, inner, value, rfl, by simp only [assign, if_neg constant]⟩)
  · rename_i other
    cases tree.value env Tree.depthLimit with
    | error fault => exact .inl ⟨fault, rfl⟩
    | ok value => exact .inr (.inl ⟨value, fun x inner eq => other x inner eq, rfl⟩)

/-- All that a step can do: an error and an unnamed result change nothing, and a named result puts
its value under its name. -/
theorem step_cases (env : Environment) (line : String) :
    (∃ message details, (env.step line).answer = .error message details ∧
      (env.step line).environment = env) ∨
    (∃ tokens tree value, Reading.ofLine line = .ok ⟨tokens, tree⟩ ∧
      (∀ x inner, tree ≠ .assign x inner) ∧
      (env.step line).answer = .result ⟨none, value⟩ ∧ (env.step line).environment = env) ∨
    ∃ tokens x inner value, Reading.ofLine line = .ok ⟨tokens, .assign x inner⟩ ∧
      (env.step line).answer = .result ⟨some x, value⟩ ∧
      (env.step line).environment = { env with bindings := env.bindings.insert x value } := by
  cases read : Reading.ofLine line with
  | error refusal =>
    obtain ⟨answer, environment⟩ := step_of_refusal env read
    exact .inl ⟨_, _, answer, environment⟩
  | ok reading =>
    obtain ⟨tokens, tree⟩ := reading
    obtain ⟨answer, environment⟩ := step_of_reading env read
    rcases execute_cases env tree with ⟨fault, executed⟩ | ⟨value, other, executed⟩ |
      ⟨x, inner, value, rfl, executed⟩
    · rw [executed] at answer environment
      exact .inl ⟨_, _, answer, environment⟩
    · rw [executed] at answer environment
      exact .inr (.inl ⟨tokens, tree, value, rfl, other, answer, environment⟩)
    · rw [executed] at answer environment
      exact .inr (.inr ⟨tokens, x, inner, value, rfl, answer, environment⟩)

end Environment
end Reckoner

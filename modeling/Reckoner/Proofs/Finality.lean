import Reckoner.Proofs.Evaluation.Depth
import Reckoner.Proofs.Independence

/- Answers that no later line changes in kind: a session never forgets a name, so what has succeeded
   goes on to succeed, and of the errors only those about unknown variables can go away. -/
namespace Reckoner
open Token

namespace Environment

/-- The same constants and functions, and at least the same variables, whatever their values. -/
structure Extends (later env : Environment) : Prop where
  constants : later.constants = env.constants
  functions : later.functions = env.functions
  bound : ∀ x, env.bindings.contains x → later.bindings.contains x

theorem extends_refl (env : Environment) : env.Extends env :=
  ⟨rfl, rfl, fun _ bound => bound⟩

theorem extends_trans {last later env : Environment} (second : last.Extends later)
    (first : later.Extends env) : last.Extends env where
  constants := second.constants.trans first.constants
  functions := second.functions.trans first.functions
  bound := fun x bound => second.bound x (first.bound x bound)

theorem extends_step (env : Environment) (line : String) :
    (env.step line).environment.Extends env := by
  rcases env.step_cases line with ⟨message, details, answer, left⟩ |
    ⟨tokens, tree, value, read, other, answer, left⟩ |
    ⟨tokens, x, inner, value, read, answer, left⟩
  · rw [left]
    exact extends_refl env
  · rw [left]
    exact extends_refl env
  · rw [left]
    refine ⟨rfl, rfl, fun y bound => ?_⟩
    rw [Table.contains_insert, bound, Bool.true_or]

theorem extends_run (env : Environment) (lines : List String) :
    (env.left (env.steps lines)).Extends env := by
  induction lines generalizing env with
  | nil => exact extends_refl env
  | cons line lines ih =>
    rw [steps, left_cons]
    exact extends_trans (ih _) (extends_step env line)

end Environment

namespace Check

/-- Whether the check asks for the value of a name. Lines to come can only make it pass. -/
def isBound : Check → Bool
  | bound _ => true
  | _ => false

theorem passes_of_extends {later env : Environment} (grown : later.Extends env) {check : Check}
    (passes : check.passes env) : check.passes later := by
  cases check with
  | bound x =>
    simp only [Check.passes, Bool.or_eq_true] at passes ⊢
    rw [grown.constants]
    exact passes.imp (grown.bound x) id
  | callable f => simpa only [Check.passes, grown.functions] using passes
  | assignable x => simpa only [Check.passes, grown.constants] using passes

theorem fails_of_extends {later env : Environment} (grown : later.Extends env) {check : Check}
    (final : check.isBound = false) (fails : check.passes env = false) :
    check.passes later = false := by
  cases check with
  | bound x => simp [isBound] at final
  | callable f => simpa only [Check.passes, grown.functions] using fails
  | assignable x => simpa only [Check.passes, grown.constants] using fails

end Check

def Check.firstFailing (env : Environment) (checks : List Check) : Option Check :=
  checks.find? (!·.passes env)

theorem first_failing_none {env : Environment} {checks : List Check} :
    Check.firstFailing env checks = none ↔ ∀ check ∈ checks, check.passes env := by
  simp [Check.firstFailing]

theorem first_failing_some {env : Environment} {checks : List Check} {check : Check} :
    Check.firstFailing env checks = some check ↔
      check.passes env = false ∧ ∃ before after, checks = before ++ check :: after ∧
        ∀ earlier ∈ before, earlier.passes env := by
  simp [Check.firstFailing, List.find?_eq_some_iff_append]

theorem outcome_of_guarded {α : Type} {env : Environment} {checks : List Check}
    {outcome : Except Fault α} (guarded : Guarded env checks outcome) :
    (∃ value, outcome = .ok value) ∧ Check.firstFailing env checks = none ∨
      ∃ check, outcome = .error check.fault ∧ Check.firstFailing env checks = some check := by
  cases guarded with
  | value pass => exact .inl ⟨⟨_, rfl⟩, first_failing_none.mpr pass⟩
  | fault pass fails =>
    exact .inr ⟨_, rfl, first_failing_some.mpr ⟨fails, _, _, rfl, pass⟩⟩

theorem first_failing_extends {later env : Environment} (grown : later.Extends env)
    (checks : List Check) :
    (Check.firstFailing env checks = none → Check.firstFailing later checks = none) ∧
      ∀ check : Check, check.isBound = false → Check.firstFailing env checks = some check →
        Check.firstFailing later checks = some check := by
  constructor
  · intro pass
    refine first_failing_none.mpr fun check member => ?_
    exact Check.passes_of_extends grown (first_failing_none.mp pass check member)
  · intro check final first
    -- the checks before it pass all the more
    obtain ⟨fails, before, after, split, pass⟩ := first_failing_some.mp first
    refine first_failing_some.mpr ⟨Check.fails_of_extends grown final fails, before, after, split,
      fun earlier member => Check.passes_of_extends grown (pass earlier member)⟩

theorem append_ne_of_tail {front text tail other : String}
    (lengths : tail.toList.length = other.toList.length) (differs : tail ≠ other) :
    front ++ tail ≠ text ++ other := by
  intro same
  have lists := congrArg String.toList same
  rw [String.toList_append, String.toList_append] at lists
  exact differs (String.toList_inj.mp (List.append_inj' lists lengths).2)

namespace Fault

theorem message_function_ne_variable (f x : String) :
    (unknownFunction f).message ≠ (unknownVariable x).message :=
  append_ne_of_tail (by decide) (by decide)

theorem message_constant_ne_variable (c x : String) :
    (constantTarget c).message ≠ (unknownVariable x).message := by
  have ends : " is not a valid variable name".toList.getLast? = some 'e' := by decide
  have last : "Can't change value of a constant".toList.getLast? = some 't' := by decide
  exact (append_ne_of_last ends last (by decide)).symm

theorem refused_ne_variable (x : String) :
    "invalid expression" ≠ (unknownVariable x).message := by
  have ends : " is not a valid variable name".toList.getLast? = some 'e' := by decide
  have last : "invalid expression".toList.getLast? = some 'n' := by decide
  exact (append_ne_of_last ends last (by decide)).symm

end Fault

theorem Answer.result_of_naming {answer : Answer} {x : String} {value : Float}
    (named : answer.naming? = some (x, value)) : answer = .result ⟨some x, value⟩ := by
  unfold naming? at named
  split at named
  · cases named
    rfl
  · cases named

namespace Environment

theorem name_of_execute {env changed : Environment} {tree : Tree} {result : Result}
    (done : env.execute tree = .ok (result, changed)) : result.name = tree.target? := by
  rcases env.execute_cases tree with ⟨fault, executed⟩ | ⟨value, other, executed⟩ |
    ⟨x, inner, value, rfl, executed⟩
  · rw [executed] at done
    cases done
  · rw [executed] at done
    cases done
    cases tree with
    | assign x inner => exact absurd rfl (other x inner)
    | _ => rfl
  · rw [executed] at done
    cases done
    rfl

/-- An outcome later on: a value stays a value of the same name, and a fault that is not about a
variable stays the same. -/
theorem execute_extends {later env : Environment} (grown : later.Extends env) (total : env.Total)
    {line : String} {tokens : List Token} {tree : Tree}
    (read : Reading.ofLine line = .ok ⟨tokens, tree⟩) :
    (∀ result changed, env.execute tree = .ok (result, changed) →
      ∃ value changed, later.execute tree = .ok (⟨result.name, value⟩, changed)) ∧
    ∀ fault, env.execute tree = .error fault →
      later.execute tree = .error fault ∨ ∃ x, fault = .unknownVariable x := by
  have before := outcome_of_guarded (guarded_execute total read)
  have laterTotal := total_of_functions grown.functions total
  have after := outcome_of_guarded (guarded_execute laterTotal read)
  obtain ⟨passing, failing⟩ := first_failing_extends grown tree.checks
  constructor
  · intro result changed done
    rcases before with ⟨_, none⟩ | ⟨check, failed, _⟩
    · rcases after with ⟨⟨⟨other, otherChanged⟩, again⟩, _⟩ | ⟨check, _, some⟩
      · have name : other.name = result.name :=
          (name_of_execute again).trans (name_of_execute done).symm
        exact ⟨other.value, otherChanged, by rw [again, ← name]⟩
      · rw [passing none] at some
        cases some
    · rw [failed] at done
      cases done
  · intro fault failed
    rcases before with ⟨⟨_, done⟩, _⟩ | ⟨check, failedHere, some⟩
    · rw [done] at failed
      cases failed
    · rw [failedHere] at failed
      cases failed
      cases check with
      | bound x => exact .inr ⟨x, rfl⟩
      | _ =>
        have still := failing _ rfl some
        rcases after with ⟨_, none⟩ | ⟨other, again, first⟩
        · rw [still] at none
          cases none
        · rw [still] at first
          cases first
          exact .inl again

theorem answer_extends {later env : Environment} (grown : later.Extends env) (total : env.Total)
    (line : String) :
    (∀ result, (env.step line).answer = .result result →
      ∃ value, (later.step line).answer = .result ⟨result.name, value⟩) ∧
    ((env.step line).answer.isError → (later.step line).answer = (env.step line).answer ∨
      ∃ x, (env.step line).answer = .error (Fault.unknownVariable x).message none) := by
  cases read : Reading.ofLine line with
  | error refusal =>
    rw [(step_of_refusal env read).1, (step_of_refusal later read).1]
    exact ⟨fun result told => by simp [Refusal.answer] at told, fun _ => .inl rfl⟩
  | ok reading =>
    obtain ⟨tokens, tree⟩ := reading
    obtain ⟨values, faults⟩ := execute_extends grown total read
    rw [(step_of_reading env read).1, (step_of_reading later read).1]
    cases executed : env.execute tree with
    | error fault =>
      refine ⟨fun result told => by simp [Environment.told] at told, fun _ => ?_⟩
      rcases faults fault executed with again | ⟨x, rfl⟩
      · exact .inl (by rw [again])
      · exact .inr ⟨x, rfl⟩
    | ok done =>
      obtain ⟨result, changed⟩ := done
      refine ⟨fun other told => ?_, fun failed => by simp [told, Answer.isError] at failed⟩
      obtain ⟨value, _, again⟩ := values result changed executed
      simp only [Environment.told, Answer.result.injEq] at told
      exact ⟨value, by rw [again, ← told]; rfl⟩

/-- Whatever lines come between, a line that has had a result has one again, of the same name, and
an error that is not about an unknown variable comes again word for word: a line that cannot be
read, that calls an unknown function or that assigns to a constant never gets any other answer. -/
theorem answers_final_in_kind (env : Environment) (total : env.Total) (line : String)
    (between : List String) :
    let first := (env.step line).answer
    let second := ((env.left (env.steps between)).step line).answer
    (∀ result, first = .result result → ∃ value, second = .result ⟨result.name, value⟩) ∧
      (∀ details, first = .error "invalid expression" details → second = first) ∧
      (∀ f, first = .error (Fault.unknownFunction f).message none → second = first) ∧
      (∀ c, first = .error (Fault.constantTarget c).message none → second = first) ∧
      (first.isError → second = first ∨
        ∃ x, first = .error (Fault.unknownVariable x).message none) := by
  intro first second
  obtain ⟨results, errors⟩ := answer_extends (extends_run env between) total line
  have final : ∀ message details, first = .error message details →
      (∀ x, message ≠ (Fault.unknownVariable x).message) → second = first := by
    intro message details told other
    have failed : first.isError := by rw [told]; rfl
    rcases errors failed with again | ⟨x, unknown⟩
    · exact again
    · have same := told.symm.trans unknown
      cases same
      exact absurd rfl (other x)
  refine ⟨results, fun details told => ?_, fun f told => ?_, fun c told => ?_, errors⟩
  · exact final _ _ told Fault.refused_ne_variable
  · exact final _ _ told (Fault.message_function_ne_variable f)
  · exact final _ _ told (Fault.message_constant_ne_variable c)

theorem unknown_function_stays_first :
    let env := { builtin with bindings := .ofList [("a", 2)] }
    let later := env.left (env.steps ["b = 1", "a = 0 / b", "a = q(a)", "b +"])
    env.Total ∧
      (env.step "pi = f(a) + b").answer = .error "'f' is not a valid function name" none ∧
      (later.step "pi = f(a) + b").answer = .error "'f' is not a valid function name" none ∧
      (env.step "b + a").answer ≠ (later.step "b + a").answer ∧
      ∃ value, (later.step "c = 1 / a").answer = .result ⟨some "c", value⟩ := by
  intro env later
  have total : env.Total := builtin_total
  have message : (Fault.unknownFunction "f").message = "'f' is not a valid function name" := by
    decide +kernel
  have told : (env.step "pi = f(a) + b").answer =
      .error "'f' is not a valid function name" none := by decide +kernel
  have unknown : (env.step "b + a").answer = .error "'b' is not a valid variable name" none := by
    decide +kernel
  have known : (later.step "b + a").answer.isError = false := by decide +kernel
  obtain ⟨⟨_, value⟩, naming, rfl⟩ : ∃ binding,
      (env.step "c = 1 / a").answer.naming? = some binding ∧ binding.1 = "c" :=
    Option.map_eq_some_iff.mp (by decide +kernel)
  have final := answers_final_in_kind env total "pi = f(a) + b"
    ["b = 1", "a = 0 / b", "a = q(a)", "b +"]
  have results := (answers_final_in_kind env total "c = 1 / a"
    ["b = 1", "a = 0 / b", "a = q(a)", "b +"]).1
  refine ⟨total, told, ?_, fun same => ?_, ?_⟩
  · rw [← message] at told ⊢
    exact (final.2.2.1 "f" told).trans told
  · rw [← same, unknown] at known
    simp [Answer.isError] at known
  · exact results _ (Answer.result_of_naming naming)

end Environment
end Reckoner

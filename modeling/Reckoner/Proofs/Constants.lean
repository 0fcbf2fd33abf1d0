import Reckoner.Proofs.Reading

/- Constants stay what they are: whatever is done with an environment, by its lines or past them, no
   constant becomes a variable. That variables are looked up before constants makes no difference
   therefore. -/
namespace Reckoner

/-- What can be done with an environment. Trees need not be such that a line is read as them. -/
inductive Action
  | assign (name : String) (value : Float)
  | resolve (name : String)
  | apply (function : String) (argument : Float)
  | execute (tree : Tree)
  | evaluate (line : String)

namespace Environment

def changed (env : Environment) : Except Fault Environment → Environment
  | .error _ => env
  | .ok other => other

def perform (env : Environment) : Action → Environment
  | .assign x value => env.changed (env.assign x value)
  | .resolve _ => env
  | .apply .. => env
  | .execute tree => env.changed ((env.execute tree).map Prod.snd)
  | .evaluate line => (env.step line).environment

def performAll (env : Environment) (actions : List Action) : Environment :=
  actions.foldl perform env

def resolveConstantsFirst (env : Environment) (name : String) : Except Fault Float :=
  match env.constants.get? name with
  | some value => .ok value
  | none =>
    match env.bindings.get? name with
    | some value => .ok value
    | none => .error (.unknownVariable name)

structure Protected (constants : Table Float) (functions : Table Function)
    (env : Environment) : Prop where
  sameConstants : env.constants = constants
  sameFunctions : env.functions = functions
  free : ∀ x, constants.contains x → env.bindings.contains x = false

section Protected

variable {constants : Table Float} {functions : Table Function} {env : Environment}

theorem protected_fresh (constants : Table Float) (functions : Table Function) :
    Protected constants functions (fresh constants functions) :=
  ⟨rfl, rfl, fun _ _ => rfl⟩

theorem assign_constant (env : Environment) {x : String} (constant : env.constants.contains x)
    (value : Float) : env.assign x value = .error (.constantTarget x) := by
  simp only [assign, if_pos constant]

theorem protected_assign (safe : Protected constants functions env) (x : String) (value : Float) :
    Protected constants functions (env.changed (env.assign x value)) := by
  unfold assign
  split
  · exact safe
  · rename_i notConstant
    refine ⟨safe.sameConstants, safe.sameFunctions, fun y constant => ?_⟩
    have differs : y ≠ x := by
      rintro rfl
      rw [safe.sameConstants] at notConstant
      exact notConstant constant
    have free := safe.free y constant
    rw [Table.contains_eq_isSome] at free ⊢
    simp only [changed, Table.get_insert, if_neg differs, free]

theorem execute_changed (env : Environment) (tree : Tree) :
    env.changed ((env.execute tree).map Prod.snd) = env ∨
      ∃ x value, env.changed ((env.execute tree).map Prod.snd) =
        env.changed (env.assign x value) := by
  unfold execute
  split
  · rename_i x inner
    cases inner.value env Tree.depthLimit with
    | error fault => exact .inl rfl
    | ok value =>
      refine .inr ⟨x, value, ?_⟩
      simp only
      cases env.assign x value <;> rfl
  · cases Tree.value env Tree.depthLimit tree <;> exact .inl rfl

theorem protected_execute (safe : Protected constants functions env) (tree : Tree) :
    Protected constants functions (env.changed ((env.execute tree).map Prod.snd)) := by
  rcases env.execute_changed tree with same | ⟨x, value, assigned⟩
  · rw [same]
    exact safe
  · rw [assigned]
    exact protected_assign safe x value

theorem after_eq_changed (env : Environment) (outcome : Except Fault (Result × Environment)) :
    env.after outcome = env.changed (outcome.map Prod.snd) := by
  cases outcome <;> rfl

theorem protected_step (safe : Protected constants functions env) (line : String) :
    Protected constants functions (env.step line).environment := by
  cases read : Reading.ofLine line with
  | error refusal =>
    rw [(step_of_refusal env read).2]
    exact safe
  | ok reading =>
    rw [(step_of_reading env read).2, after_eq_changed]
    exact protected_execute safe reading.tree

theorem protected_perform (safe : Protected constants functions env) (action : Action) :
    Protected constants functions (env.perform action) := by
  cases action with
  | assign x value => exact protected_assign safe x value
  | resolve x => exact safe
  | apply f argument => exact safe
  | execute tree => exact protected_execute safe tree
  | evaluate line => exact protected_step safe line

theorem protected_run (safe : Protected constants functions env) (actions : List Action) :
    Protected constants functions (env.performAll actions) := by
  induction actions generalizing env with
  | nil => exact safe
  | cons action actions ih => exact ih (protected_perform safe action)

theorem resolve_constant (safe : Protected constants functions env) {x : String} {value : Float}
    (constant : constants.get? x = some value) : env.resolve x = .ok value := by
  have known : constants.contains x := by rw [Table.contains_eq_isSome, constant]; rfl
  have free := (Table.get_eq_none_iff env.bindings x).mpr (safe.free x known)
  simp only [resolve, free, safe.sameConstants, constant]

theorem resolve_constants_first (safe : Protected constants functions env) (x : String) :
    env.resolveConstantsFirst x = env.resolve x := by
  unfold resolveConstantsFirst
  split
  · rename_i value constant
    rw [safe.sameConstants] at constant
    exact (resolve_constant safe constant).symm
  · rename_i missing
    cases bound : env.bindings.get? x <;> simp [resolve, bound, missing]

end Protected

/-- Whatever has been done with an environment that began without variables: none of its constants
is a variable, each of them still stands for its value and cannot be assigned to, no name would have
another value if constants came first, and both tables are the ones that it began with. -/
theorem constants_never_change (constants : Table Float) (functions : Table Function)
    (actions : List Action) :
    let env := (fresh constants functions).performAll actions
    (∀ x, constants.contains x →
      env.bindings.contains x = false ∧
        ∀ value, env.assign x value = .error (.constantTarget x)) ∧
      (∀ x value, constants.get? x = some value → env.resolve x = .ok value) ∧
      (∀ x, env.resolveConstantsFirst x = env.resolve x) ∧
      env.constants = constants ∧ env.functions = functions := by
  intro env
  have safe : Protected constants functions env :=
    protected_run (protected_fresh constants functions) actions
  refine ⟨fun x constant => ⟨safe.free x constant, ?_⟩, fun x value => resolve_constant safe,
    resolve_constants_first safe, safe.sameConstants, safe.sameFunctions⟩
  rw [← safe.sameConstants] at constant
  exact env.assign_constant constant

theorem three_ways_refused :
    let env := builtin.performAll
      [.assign "pi" 3, .execute (.assign "e" (.binary .neg (.number 1) (.number 2))),
        .execute (.assign "e" (.number 1)), .evaluate "pi = 4", .evaluate "e1 = e",
        .assign "sin" 2, .resolve "e", .apply "pi" 1]
    env.bindings.names = ["e1", "sin"] ∧ env.bindings.contains "pi" = false ∧
      env.resolve "pi" = .ok (Float.ofBits 0x400921FB54442D18) ∧
      env.resolveConstantsFirst "sin" = .ok 2 ∧ env.constants = builtinConstants := by
  intro env
  obtain ⟨unassigned, values, first, same, _⟩ :=
    constants_never_change builtinConstants builtinFunctions
      [.assign "pi" 3, .execute (.assign "e" (.binary .neg (.number 1) (.number 2))),
        .execute (.assign "e" (.number 1)), .evaluate "pi = 4", .evaluate "e1 = e",
        .assign "sin" 2, .resolve "e", .apply "pi" 1]
  refine ⟨by decide +kernel, (unassigned "pi" (by decide)).1, values "pi" _ (by decide +kernel), ?_,
    same⟩
  have resolved : env.resolve "sin" = .ok 2 := ok_of_toOption (by decide +kernel)
  exact (first "sin").trans resolved

end Environment
end Reckoner

import Mathlib.Data.List.Basic
import Reckoner.Proofs.Reading

/- The variables of a session and the answers that named them: at every point of a run the one can
   be told from the other. -/
namespace Reckoner

namespace Answer

def naming? : Answer → Option (String × Float)
  | result ⟨some name, value⟩ => some (name, value)
  | _ => none

end Answer

/-- Each name once, in the order in which the names first came, with the value that came last. -/
def settled (namings : List (String × Float)) : List (String × Float) :=
  (namings.map Prod.fst).eraseDups.filterMap fun name =>
    (namings.reverse.lookup name).map fun value => (name, value)

def Environment.left (env : Environment) (run : List Step) : Environment :=
  (run.getLast?.map (·.environment)).getD env

namespace Table

theorem entries_of_names {α : Type} (table : Table α) :
    table.entries = table.names.filterMap fun name =>
      (table.get? name).map fun value => (name, value) := by
  obtain ⟨entries, distinct⟩ := table
  simp only [names, get?]
  induction entries with
  | nil => rfl
  | cons entry entries ih =>
    obtain ⟨key, value⟩ := entry
    simp only [List.map_cons, List.nodup_cons] at distinct
    rw [List.map_cons, List.filterMap_cons, List.lookup_cons_self]
    simp only [Option.map_some, List.cons.injEq, true_and]
    refine (ih distinct.2).trans (List.filterMap_congr fun name member => ?_)
    have differs : name ≠ key := fun same => distinct.1 (same ▸ member)
    rw [lookup_cons_of_ne differs]

theorem insert_others {α : Type} (table : Table α) (name : String) (value : α) :
    (table.insert name value).entries.filter (·.1 ≠ name) =
      table.entries.filter (·.1 ≠ name) := by
  unfold insert
  split
  · simp only
    induction table.entries with
    | nil => rfl
    | cons entry entries ih =>
      rw [List.map_cons, List.filter_cons, List.filter_cons, ih]
      by_cases same : entry.1 = name <;> simp [same]
  · simp

end Table

def Settles (table : Table Float) (namings : List (String × Float)) : Prop :=
  table.names = (namings.map Prod.fst).eraseDups ∧
    ∀ name, table.get? name = namings.reverse.lookup name

theorem entries_of_settles {table : Table Float} {namings : List (String × Float)}
    (settles : Settles table namings) : table.entries = settled namings := by
  rw [table.entries_of_names, settles.1]
  exact List.filterMap_congr fun name _ => by rw [settles.2]

theorem settles_empty : Settles .empty [] :=
  ⟨rfl, fun _ => rfl⟩

theorem settles_insert {table : Table Float} {namings : List (String × Float)}
    (settles : Settles table namings) (name : String) (value : Float) :
    Settles (table.insert name value) (namings ++ [(name, value)]) := by
  constructor
  · rw [Table.names_insert, List.map_append, List.eraseDups_append, settles.1]
    have known : table.contains name = (namings.map Prod.fst).contains name := by
      rw [Table.contains, settles.1]
      simp
    rw [known]
    by_cases named : name ∈ namings.map Prod.fst <;>
      simp [named, List.removeAll, List.eraseDups_cons]
  · intro x
    rw [Table.get_insert, List.reverse_append, List.reverse_singleton, List.singleton_append]
    by_cases same : x = name
    · subst same
      rw [if_pos rfl, List.lookup_cons_self]
    · rw [if_neg same, Table.lookup_cons_of_ne same, settles.2]

namespace Environment

theorem settles_step {env : Environment} {namings : List (String × Float)}
    (settles : Settles env.bindings namings) (line : String) :
    Settles (env.step line).environment.bindings
      (namings ++ (env.step line).answer.naming?.toList) := by
  rcases env.step_cases line with ⟨message, details, answer, left⟩ |
    ⟨tokens, tree, value, read, other, answer, left⟩ |
    ⟨tokens, x, inner, value, read, answer, left⟩
  · rw [answer, left]
    simpa [Answer.naming?] using settles
  · rw [answer, left]
    simpa [Answer.naming?] using settles
  · rw [answer, left]
    exact settles_insert settles x value

theorem left_cons (env : Environment) (step : Step) (run : List Step) :
    env.left (step :: run) = step.environment.left run := by
  cases run with
  | nil => rfl
  | cons next run => simp [left, List.getLast?_cons]

theorem settles_run {env : Environment} {namings : List (String × Float)}
    (settles : Settles env.bindings namings) (lines : List String) (count : Nat) :
    Settles (env.left ((env.steps lines).take count)).bindings
      (namings ++ ((env.steps lines).take count).filterMap (·.answer.naming?)) := by
  induction lines generalizing env namings count with
  | nil => simpa [steps, left] using settles
  | cons line lines ih =>
    cases count with
    | zero => simpa [left] using settles
    | succ count =>
      have later := ih (settles_step settles line) count
      rw [List.append_assoc] at later
      simp only [steps, List.take_succ_cons, left_cons]
      rw [List.filterMap_cons]
      cases named : (env.step line).answer.naming? <;> simpa [named] using later

theorem steps_getElem (env : Environment) (lines : List String) (count : Nat) :
    (env.steps lines)[count]? =
      lines[count]?.map (env.left ((env.steps lines).take count)).step := by
  induction lines generalizing env count with
  | nil => rfl
  | cons line lines ih =>
    cases count with
    | zero => rfl
    | succ count => simpa [steps, left_cons] using ih (env.step line).environment count

theorem settles_fresh (constants : Table Float) (functions : Table Function) :
    Settles (fresh constants functions).bindings [] := settles_empty

theorem step_frame (env : Environment) (line : String) :
    ((env.step line).answer.isError → (env.step line).environment = env) ∧
      (∀ tokens tree, Reading.ofLine line = .ok ⟨tokens, tree⟩ →
        (∀ x inner, tree ≠ .assign x inner) → (env.step line).environment = env) ∧
      ∀ tokens x inner, Reading.ofLine line = .ok ⟨tokens, .assign x inner⟩ →
        (env.step line).environment.bindings.entries.filter (·.1 ≠ x) =
          env.bindings.entries.filter (·.1 ≠ x) := by
  rcases env.step_cases line with ⟨message, details, answer, left⟩ |
    ⟨tokens, tree, value, read, other, answer, left⟩ |
    ⟨tokens, x, inner, value, read, answer, left⟩
  · rw [left]
    exact ⟨fun _ => rfl, fun _ _ _ _ => rfl, fun _ _ _ _ => rfl⟩
  · rw [left]
    exact ⟨fun _ => rfl, fun _ _ _ _ => rfl, fun _ _ _ _ => rfl⟩
  · rw [answer, left, read]
    refine ⟨fun error => by simp [Answer.isError] at error, ?_, ?_⟩
    · intro _ tree same other
      cases same
      exact absurd rfl (other x inner)
    · intro _ y other same
      cases same
      exact Table.insert_others env.bindings x value

/-- At every point of a run the variables are the names of the answers so far, in the order of the
first answer for each and with the value of the last. No error and no expression changes anything,
and an assignment changes the variable that it names and no other. -/
theorem variables_are_named_answers (constants : Table Float) (functions : Table Function)
    (lines : List String) (count : Nat) :
    let start := fresh constants functions
    let run := start.steps lines
    let before := start.left (run.take count)
    before.bindings.entries = settled ((run.take count).filterMap (·.answer.naming?)) ∧
      ∀ line step, lines[count]? = some line → run[count]? = some step →
        (step.answer.isError → step.environment = before) ∧
        (∀ tokens tree, Reading.ofLine line = .ok ⟨tokens, tree⟩ →
          (∀ x inner, tree ≠ .assign x inner) → step.environment = before) ∧
        ∀ tokens x inner, Reading.ofLine line = .ok ⟨tokens, .assign x inner⟩ →
          step.environment.bindings.entries.filter (·.1 ≠ x) =
            before.bindings.entries.filter (·.1 ≠ x) := by
  intro start run before
  constructor
  · exact entries_of_settles (settles_run (settles_fresh constants functions) lines count)
  · intro line step here taken
    have own : run[count]? = some (before.step line) := by
      rw [steps_getElem start lines count, here]
      rfl
    obtain rfl := Option.some.inj (taken.symm.trans own)
    exact before.step_frame line

theorem failed_naming_changes_nothing :
    let run := builtin.steps ["a = 1", "b = a", "b = q", "a = 2", "a"]
    (builtin.left (run.take 5)).bindings.entries.map Prod.fst = ["a", "b"] ∧
      (∃ step, run[2]? = some step ∧ step.answer.isError ∧
        step.environment = builtin.left (run.take 2)) ∧
      (∃ step, run[3]? = some step ∧ step.environment.bindings.entries.filter (·.1 ≠ "a") =
        (builtin.left (run.take 3)).bindings.entries.filter (·.1 ≠ "a")) ∧
      ∃ step, run[4]? = some step ∧ step.environment = builtin.left (run.take 4) := by
  intro run
  have history := variables_are_named_answers builtinConstants builtinFunctions
    ["a = 1", "b = a", "b = q", "a = 2", "a"]
  have assigned : Reading.ofLine "a = 2" = .ok ⟨[⟨.identifier, "a"⟩, ⟨.equal, "="⟩, ⟨.number, "2"⟩,
      Token.lineEnd], .assign "a" (Reader.literal "2")⟩ := ok_of_toOption (by decide +kernel)
  have shown : Reading.ofLine "a" = .ok ⟨[⟨.identifier, "a"⟩, Token.lineEnd], .name "a"⟩ :=
    ok_of_toOption (by decide +kernel)
  have third := ((history 2).2 "b = q" _ rfl rfl).1
  have fourth := ((history 3).2 "a = 2" _ rfl rfl).2.2 _ _ _ assigned
  have fifth := ((history 4).2 "a" _ rfl rfl).2.1 _ _ shown (by simp)
  refine ⟨?_, ⟨_, rfl, by decide +kernel, third (by decide +kernel)⟩, ⟨_, rfl, fourth⟩,
    ⟨_, rfl, fifth⟩⟩
  rw [show (builtin.left (run.take 5)).bindings.entries = _ from (history 5).1]
  decide +kernel

end Environment
end Reckoner

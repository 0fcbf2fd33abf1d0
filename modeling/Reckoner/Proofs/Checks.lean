import Reckoner.Proofs.Reading

/- The checks of a tree: what has to be known of its names before it has a value. Where all of them
   pass there is a value, whatever the numbers are, and otherwise the line is told of the first one
   that fails. -/
namespace Reckoner
open Grammar

inductive Check
  | bound (name : String)
  | callable (function : String)
  | assignable (name : String)
  deriving DecidableEq, Repr

namespace Check

def passes (env : Environment) : Check → Bool
  | bound x => env.bindings.contains x || env.constants.contains x
  | callable f => env.functions.contains f
  | assignable x => !env.constants.contains x

def fault : Check → Fault
  | bound x => .unknownVariable x
  | callable f => .unknownFunction f
  | assignable x => .constantTarget x

end Check

/-- The checks in postfix order: those of the operands from left to right, then what is done with
them. -/
def Tree.checks : Tree → List Check
  | number _ => []
  | name x => [.bound x]
  | call f argument => argument.checks ++ [.callable f]
  | unary _ operand => operand.checks
  | binary _ left right => left.checks ++ right.checks
  | assign x value => value.checks ++ [.assignable x]

def Environment.Total (env : Environment) : Prop :=
  ∀ f function, env.functions.get? f = some function → ∀ argument, (function argument).isSome

/-- A computation that has a value if all checks pass, and fails with the first one that does
not. -/
inductive Guarded {α : Type} (env : Environment) : List Check → Except Fault α → Prop where
  | value {checks : List Check} {value : α} (pass : ∀ check ∈ checks, check.passes env) :
      Guarded env checks (.ok value)
  | fault {before after : List Check} {check : Check}
      (pass : ∀ earlier ∈ before, earlier.passes env) (fails : check.passes env = false) :
      Guarded env (before ++ check :: after) (.error check.fault)

section Guarded

variable {env : Environment} {α β : Type}

theorem guarded_none (value : α) : Guarded env [] (.ok value) :=
  .value (List.forall_mem_nil _)

theorem guarded_pass {check : Check} (passes : check.passes env) (value : α) :
    Guarded env [check] (.ok value) :=
  .value (List.forall_mem_singleton.mpr passes)

theorem guarded_fail {check : Check} (fails : check.passes env = false) :
    Guarded env [check] (.error check.fault : Except Fault α) :=
  .fault (List.forall_mem_nil _) fails

/-- What comes second is checked second, and does not count after a failure. -/
theorem guarded_bind {xs ys : List Check} {first : Except Fault α} {next : α → Except Fault β}
    (before : Guarded env xs first) (after : ∀ value, Guarded env ys (next value)) :
    Guarded env (xs ++ ys) (first >>= next) := by
  cases before with
  | @value _ value pass =>
    have second := after value
    change Guarded env (xs ++ ys) (next value)
    generalize next value = outcome at second
    cases second with
    | value passAfter => exact .value (List.forall_mem_append.mpr ⟨pass, passAfter⟩)
    | fault passBefore fails =>
      rw [← List.append_assoc]
      exact .fault (List.forall_mem_append.mpr ⟨pass, passBefore⟩) fails
  | fault pass fails =>
    rw [List.append_assoc, List.cons_append]
    exact .fault pass fails

theorem guarded_resolve (x : String) : Guarded env [.bound x] (env.resolve x) := by
  unfold Environment.resolve
  split
  · rename_i value found
    exact guarded_pass (by simp [Check.passes, Table.contains_eq_isSome, found]) value
  · rename_i free
    split
    · rename_i value found
      exact guarded_pass (by simp [Check.passes, Table.contains_eq_isSome, found]) value
    · rename_i missing
      have fails : (Check.bound x).passes env = false := by
        simp [Check.passes, Table.contains_eq_isSome, free, missing]
      exact guarded_fail fails

theorem guarded_apply (total : env.Total) (f : String) (argument : Float) :
    Guarded env [.callable f] (env.apply f argument) := by
  unfold Environment.apply
  split
  · rename_i missing
    have fails : (Check.callable f).passes env = false := by
      simp [Check.passes, Table.contains_eq_isSome, missing]
    exact guarded_fail fails
  · rename_i function found
    obtain ⟨value, defined⟩ := Option.isSome_iff_exists.mp (total f function found argument)
    rw [defined]
    exact guarded_pass (by simp [Check.passes, Table.contains_eq_isSome, found]) value

theorem guarded_assign (x : String) (value : Float) :
    Guarded env [.assignable x] (env.assign x value) := by
  unfold Environment.assign
  split
  · rename_i constant
    have fails : (Check.assignable x).passes env = false := by simp [Check.passes, constant]
    exact guarded_fail fails
  · rename_i free
    exact guarded_pass (by simp [Check.passes, free]) _

theorem guarded_joint {chain : Phrase} {kind : Kind} {op : Op} (joint : Joint chain kind op)
    (a b : Float) : Guarded env [] (op.combine a b) := by
  cases joint <;> exact guarded_none _

theorem guarded_sign {kind : Kind} {op : Op} (sign : Sign kind op) (a : Float) :
    Guarded env [] (op.applySign a) := by
  cases sign <;> exact guarded_none _

theorem guarded_eval (total : env.Total) {phrase : Phrase} {xs : List Token} {tree : Tree}
    (derives : Derives phrase xs tree) : Guarded env tree.checks (tree.eval env) := by
  induction derives with
  | unsigned _ ih => exact ih
  | signed sign _ ih =>
    have whole := guarded_bind ih (guarded_sign sign)
    rwa [List.append_nil] at whole
  | single _ _ ih => exact ih
  | @joined _ _ _ _ _ _ left right _ _ joint _ leftIh rightIh =>
    refine guarded_bind leftIh fun a => ?_
    have whole := guarded_bind rightIh (guarded_joint joint a)
    rwa [List.append_nil] at whole
  | number => exact guarded_none _
  | @name lexeme => exact guarded_resolve lexeme
  | @call lexeme _ _ _ _ _ _ _ _ ih => exact guarded_bind ih (guarded_apply total lexeme)
  | bracketed _ _ _ ih => exact ih

theorem guarded_map {checks : List Check} {outcome : Except Fault α}
    (guarded : Guarded env checks outcome) (f : α → β) : Guarded env checks (outcome.map f) := by
  cases guarded with
  | value pass => exact .value pass
  | fault pass fails => exact .fault pass fails

end Guarded

theorem find_first_failing {env : Environment} {before after : List Check} {check : Check}
    (pass : ∀ earlier ∈ before, earlier.passes env) (fails : check.passes env = false) :
    (before ++ check :: after).find? (!·.passes env) = some check := by
  have none : before.find? (!·.passes env) = none :=
    List.find?_eq_none.mpr fun earlier member => by simp [pass earlier member]
  rw [List.find?_append, none, Option.none_or, List.find?_cons, fails]
  rfl

namespace Environment

theorem guarded_execute {env : Environment} (total : env.Total) {line : String}
    {tokens : List Token} {tree : Tree} (read : Reading.ofLine line = .ok ⟨tokens, tree⟩) :
    Guarded env tree.checks (env.execute tree) := by
  obtain ⟨words, rfl, _, statement, nested⟩ := (reading_iff _ _ _).mp read
  cases statement with
  | expression derives =>
    rw [execute_expression env derives nested]
    exact guarded_map (guarded_eval total derives) _
  | @assignment x equal _ value sign derives =>
    rw [execute_assignment env x derives (Token.nested_assigned sign nested)]
    refine guarded_bind (guarded_eval total derives) fun v => ?_
    exact guarded_map (guarded_assign x v) _

theorem builtin_total : builtin.Total := by
  intro f function found argument
  have member := Table.mem_of_get found
  have entries : builtin.functions.entries =
      [("cos", some ∘ Float.cos), ("sin", some ∘ Float.sin), ("tg", some ∘ Float.tan),
       ("ctg", some ∘ Float.tan)] := rfl
  rw [entries] at member
  simp only [List.mem_cons, Prod.mk.injEq, List.not_mem_nil, or_false] at member
  rcases member with ⟨_, rfl⟩ | ⟨_, rfl⟩ | ⟨_, rfl⟩ | ⟨_, rfl⟩ <;> rfl

/-- A line that can be read has a result exactly if all its checks pass. Otherwise it fails at the
first check that does not, and is told so. -/
theorem told_first_failing_check (env : Environment) (total : env.Total) {line : String}
    {reading : Reading} (read : Reading.ofLine line = .ok reading) :
    ((∃ result, (env.step line).answer = .result result) ↔
        ∀ check ∈ reading.tree.checks, check.passes env) ∧
      ∀ before check after, reading.tree.checks = before ++ check :: after →
        (∀ earlier ∈ before, earlier.passes env) → check.passes env = false →
          env.execute reading.tree = .error check.fault ∧
            (env.step line).answer = .error check.fault.message none := by
  obtain ⟨tokens, tree⟩ := reading
  have guarded := guarded_execute total read
  rw [(step_of_reading env read).1]
  simp only
  generalize env.execute tree = outcome at guarded
  generalize tree.checks = checks at guarded
  cases guarded with
  | @value _ done pass =>
    refine ⟨⟨fun _ => pass, fun _ => ⟨done.1, rfl⟩⟩, ?_⟩
    rintro before check after rfl _ fails
    have passes := pass check (by simp)
    rw [fails] at passes
    contradiction
  | @fault front rest first passFront firstFails =>
    refine ⟨⟨fun succeeds => ?_, fun pass => ?_⟩, ?_⟩
    · obtain ⟨result, answer⟩ := succeeds
      simp [told] at answer
    · have passes := pass first (by simp)
      rw [firstFails] at passes
      contradiction
    · intro before check after same pass fails
      have found := @find_first_failing env front rest first passFront firstFails
      rw [same, find_first_failing pass fails] at found
      cases found
      exact ⟨rfl, rfl⟩

theorem unknown_argument_told_first :
    let env := { builtin with bindings := .ofList [("x", 0)] }
    (∃ result, (env.step "x = sin(1 / x) ^ (0 / x)").answer = .result result) ∧
      (env.step "pi = sin(1 / x) - q(x ^ y) / z").answer =
        .error "'y' is not a valid variable name" none := by
  intro env
  have total : env.Total := builtin_total
  obtain ⟨good, goodRead, goodChecks⟩ : ∃ reading,
      (Reading.ofLine "x = sin(1 / x) ^ (0 / x)").toOption = some reading ∧
        reading.tree.checks = [.bound "x", .callable "sin", .bound "x", .assignable "x"] :=
    Option.map_eq_some_iff.mp (by decide +kernel)
  obtain ⟨bad, badRead, badChecks⟩ : ∃ reading,
      (Reading.ofLine "pi = sin(1 / x) - q(x ^ y) / z").toOption = some reading ∧
        reading.tree.checks =
          [.bound "x", .callable "sin", .bound "x"] ++ .bound "y" ::
            [.callable "q", .bound "z", .assignable "pi"] :=
    Option.map_eq_some_iff.mp (by decide +kernel)
  have first := told_first_failing_check env total (ok_of_toOption goodRead)
  have second := told_first_failing_check env total (ok_of_toOption badRead)
  have message : (Check.bound "y").fault.message = "'y' is not a valid variable name" := by
    decide +kernel
  refine ⟨first.1.mpr ?_, ?_⟩
  · rw [goodChecks]
    decide +kernel
  · rw [← message]
    exact (second.2 _ _ _ badChecks (by decide +kernel) (by decide +kernel)).2

end Environment
end Reckoner

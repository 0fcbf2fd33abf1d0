import Reckoner.Proofs.Replacement

/- Naming an expression: a line that uses the name has the answer of the line in which the
   expression itself, in brackets, stands for the name. -/
namespace Reckoner
open Grammar Token

theorem eval_replace {env : Environment} (x : String) {value : Tree} {v : Float}
    (given : value.eval env = .ok v) {phrase : Phrase} {xs : List Token} {tree : Tree}
    (derives : Derives phrase xs tree) :
    tree.eval { env with bindings := env.bindings.insert x v } =
      (Tree.replace x value tree).eval env := by
  induction derives with
  | unsigned _ ih => exact ih
  | signed _ _ ih => simp only [Tree.replace, Tree.eval, ih]
  | single _ _ ih => exact ih
  | joined _ _ _ _ leftIh rightIh => simp only [Tree.replace, Tree.eval, leftIh, rightIh]
  | number => rfl
  | @name lexeme =>
    by_cases same : lexeme = x
    · simp only [Tree.replace, Tree.eval, Environment.resolve, Table.get_insert, same, if_true,
        given]
    · simp only [Tree.replace, Tree.eval, Environment.resolve, Table.get_insert, same, if_false]
  | call _ _ _ _ ih =>
    simp only [Tree.replace, Tree.eval, ih]
    rfl
  | bracketed _ _ _ ih => exact ih

theorem spread_naming {x e : String} (identifier : Shape .identifier x.toList)
    {words : List Token} (spread : Spread words (x ++ " = " ++ e).toList) :
    ∃ inner, words = ⟨.identifier, x⟩ :: ⟨.equal, "="⟩ :: inner ∧ Spread inner e.toList := by
  have blank : ∀ c ∈ [' '], Text.isBlank c := List.forall_mem_singleton.mpr rfl
  have ends : Lexeme.Ends .identifier x.toList ([' '] ++ (['='] ++ ([' '] ++ e.toList))) :=
    Lexeme.clear_ends (blank_clear blank (by simp) _) _ _
  have text : (x ++ " = " ++ e).toList =
      x.toList ++ ([' '] ++ (['='] ++ ([' '] ++ e.toList))) := by
    rw [String.toList_append, String.toList_append, List.append_assoc]
    rfl
  have equal : Shape .equal ['='] := .symbol rfl
  have scanned := scan_of_spread spread
  rw [text, scan_lexeme identifier ends, scan_blanks blank, scan_lexeme equal trivial,
    scan_blanks blank, String.ofList_toList] at scanned
  cases later : scan e.toList with
  | error fault => simp [later, Except.map] at scanned
  | ok tokens =>
    obtain ⟨inner, rfl, innerSpread⟩ := spread_of_scan later
    simp only [later, Except.map, Except.ok.injEq] at scanned
    refine ⟨inner, ?_, innerSpread⟩
    rw [← List.cons_append, ← List.cons_append] at scanned
    exact (List.append_cancel_right scanned).symm

namespace Environment

theorem step_naming {env : Environment} {x e : String} (identifier : Shape .identifier x.toList)
    {result : Result} (named : (env.step (x ++ " = " ++ e)).answer = .result result) :
    ∃ words value v, Spread words e.toList ∧ Derives .expression words value ∧
      value.eval env = .ok v ∧ (env.step (x ++ " = " ++ e)).environment =
        { env with bindings := env.bindings.insert x v } := by
  cases read : Reading.ofLine (x ++ " = " ++ e) with
  | error refusal =>
    rw [(step_of_refusal env read).1] at named
    simp [Refusal.answer] at named
  | ok reading =>
    obtain ⟨tokens, tree⟩ := reading
    obtain ⟨answer, environment⟩ := step_of_reading env read
    obtain ⟨whole, rfl, spread, statement, nested⟩ := (reading_iff _ _ _).mp read
    obtain ⟨words, rfl, inner⟩ := spread_naming identifier spread
    cases statement with
    | expression derives => exact absurd rfl (derives_inner derives ⟨.equal, "="⟩ (by simp)).2
    | @assignment _ _ _ value _ derives =>
      have tail := nested_assigned rfl nested
      rw [execute_assignment env x derives tail] at answer environment
      cases evaluated : value.eval env with
      | error fault => simp [answer, evaluated, bind, Except.bind, told] at named
      | ok v =>
        refine ⟨words, value, v, inner, derives, evaluated, ?_⟩
        by_cases constant : env.constants.contains x
        · simp [answer, evaluated, bind, Except.bind, assign, constant, told, Except.map] at named
        · simp [environment, evaluated, bind, Except.bind, assign, constant, after, Except.map]

theorem told_execute_replace {env : Environment} {x : String} {value : Tree} {v : Float}
    (given : value.eval env = .ok v) {valueTokens : List Token}
    (derivesValue : Derives .expression valueTokens value) {words : List Token} {tree : Tree}
    (statement : Statement words tree) (nested : Nested Tree.nestingLimit words)
    (replacedNested : Nested Tree.nestingLimit (Token.replace x valueTokens true words)) :
    told (execute { env with bindings := env.bindings.insert x v } tree) =
      told (env.execute (Tree.replace x value tree)) := by
  have replaced := statement_replace x derivesValue statement
  cases statement with
  | expression derives =>
    have evaluated := eval_replace x given derives
    have notAssigned := derives_not_assign (derives_replace_whole x derivesValue derives)
    -- the derivation of the new line is only told to be an expression by its tree
    generalize Token.replace x valueTokens true words = newWords at replaced replacedNested
    generalize Tree.replace x value tree = newTree at replaced evaluated notAssigned
    rw [execute_expression _ derives nested, evaluated]
    cases replaced with
    | assignment => exact absurd rfl (notAssigned _ _)
    | expression newDerives =>
      rw [execute_expression env newDerives replacedNested]
      cases newTree.eval env <;> rfl
  | @assignment y equal xs inner sign derives =>
    have evaluated := eval_replace x given derives
    have newDerives := derives_replace_whole x derivesValue derives
    have equalOther : equal.kind ≠ .identifier := by simp [sign]
    rw [Token.replace_target x _ _ (by simpa [Kind.next] using sign),
      Token.replace_other x _ _ equalOther] at replacedNested
    rw [Tree.replace, execute_assignment _ y derives (nested_assigned sign nested),
      execute_assignment env y newDerives (nested_assigned sign replacedNested), evaluated]
    cases (Tree.replace x value inner).eval env with
    | error fault => rfl
    | ok result =>
      simp only [bind, Except.bind, assign]
      split <;> rfl

/-- After an expression was given a name, a line that uses the name is answered as the line with the
expression in brackets in place of the name would have been before. -/
theorem answer_after_naming (env : Environment) (x e line : String)
    (identifier : Shape .identifier x.toList) {result : Result}
    (named : (env.step (x ++ " = " ++ e)).answer = .result result) {reading : Reading}
    (read : Reading.ofLine line = .ok reading)
    (nested : ∀ tokens, Token.ofLine (Text.replaceLine x e line) = .ok tokens →
      Nested Tree.nestingLimit (body tokens)) :
    ((env.step (x ++ " = " ++ e)).environment.step line).answer =
      (env.step (Text.replaceLine x e line)).answer := by
  obtain ⟨valueTokens, value, v, given, derivesValue, evaluated, left⟩ :=
    step_naming identifier named
  obtain ⟨tokens, tree⟩ := reading
  obtain ⟨words, rfl, spread, statement, within⟩ := (reading_iff _ _ _).mp read
  have newSpread := Text.spread_replace x given spread true
  have newStatement := statement_replace x derivesValue statement
  have text : (Text.replaceLine x e line).toList = Text.replace x e.toList true line.toList :=
    String.toList_ofList
  rw [← text] at newSpread
  have newWithin := nested _ (scan_of_spread newSpread)
  rw [body_of_spread newSpread] at newWithin
  have newRead : Reading.ofLine (Text.replaceLine x e line) = _ :=
    (reading_iff _ _ _).mpr ⟨_, rfl, newSpread, newStatement, newWithin⟩
  rw [left, (step_of_reading _ read).1, (step_of_reading env newRead).1]
  exact told_execute_replace evaluated derivesValue statement within newWithin

theorem old_value_under_sign :
    let env := ((fresh .empty (.ofList [("x", some ∘ Float.sin)])).step "x = 2").environment
    (env.step "x = -x + 3").answer.isError = false ∧
      Text.replaceLine "x" "-x + 3" "x = 2 ^ x - x(x)" = "x = 2 ^ (-x + 3) - x((-x + 3))" ∧
      ((env.step "x = -x + 3").environment.step "x = 2 ^ x - x(x)").answer =
        (env.step "x = 2 ^ (-x + 3) - x((-x + 3))").answer := by
  intro env
  have identifier : Shape .identifier (['x'] ++ []) :=
    .identifier (by decide) (List.forall_mem_singleton.mpr rfl) (List.forall_mem_nil _)
  have succeeds : (env.step "x = -x + 3").answer.isError = false := by decide +kernel
  obtain ⟨result, named⟩ : ∃ result, (env.step "x = -x + 3").answer = .result result := by
    cases answer : (env.step "x = -x + 3").answer with
    | result result => exact ⟨result, rfl⟩
    | error message details => simp [answer, Answer.isError] at succeeds
  have parses : (Reading.ofLine "x = 2 ^ x - x(x)").toOption.isSome := by decide +kernel
  obtain ⟨reading, read⟩ := Option.isSome_iff_exists.mp parses
  have replaced : Text.replaceLine "x" "-x + 3" "x = 2 ^ x - x(x)" =
      "x = 2 ^ (-x + 3) - x((-x + 3))" := by decide +kernel
  have newParses : (Reading.ofLine "x = 2 ^ (-x + 3) - x((-x + 3))").toOption.isSome := by
    decide +kernel
  obtain ⟨newReading, newRead⟩ := Option.isSome_iff_exists.mp newParses
  obtain ⟨words, _, spread, _, nested⟩ := (reading_iff _ _ _).mp (ok_of_toOption newRead)
  have answered := answer_after_naming env "x" "-x + 3" _ identifier named
    (ok_of_toOption read) (by
      rintro other same
      have scanned : Token.ofLine _ = .ok (words ++ [lineEnd]) := scan_of_spread spread
      rw [replaced, scanned] at same
      cases same
      rwa [body_of_spread spread])
  rw [replaced] at answered
  exact ⟨succeeds, replaced, answered⟩

end Environment
end Reckoner

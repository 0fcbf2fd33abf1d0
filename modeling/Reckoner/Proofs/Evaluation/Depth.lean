import Reckoner.Proofs.Checks

/- How deep the evaluation of a line goes. The count of evaluations that are open at once is exact:
   a tree that has a value gets it with that much depth and with no less. For the tree of a line the
   count is bounded by the brackets of the line, and no line with so many brackets is read that the
   depth could run out. -/
namespace Reckoner
open Grammar Token

namespace Tree

def evaluated : Tree → Tree
  | assign _ value => value
  | tree => tree

section TooDeep

variable {env : Environment} {depth : Nat}

theorem follow_too_deep
    (operands : ∀ {tree : Tree} {result : Float}, eval env tree = .ok result →
      depth < tree.calls → value env depth tree = .error .tooDeep)
    (steps : List (Op × Tree)) {start result : Float} (done : follow env steps start = .ok result)
    (deep : ∃ step ∈ steps, depth < step.2.calls) :
    steps.foldlM (fun result step => value env depth step.2 >>= step.1.combine result) start =
      .error .tooDeep := by
  induction steps generalizing start with
  | nil =>
    obtain ⟨step, member, _⟩ := deep
    simp at member
  | cons step steps ih =>
    rw [follow_cons] at done
    obtain ⟨next, combined, later⟩ := ok_of_bind done
    obtain ⟨operand, evaluated, _⟩ := ok_of_bind combined
    rw [List.foldlM_cons]
    by_cases here : depth < step.2.calls
    · rw [operands evaluated here]
      rfl
    · have enough := value_eq_eval env (Nat.not_lt.mp here)
      have behind : ∃ other ∈ steps, depth < other.2.calls := by
        simpa [here] using deep
      rw [enough, combined]
      exact ih later behind

theorem too_deep_of_calls {tree : Tree} {result : Float} (done : eval env tree = .ok result)
    (deep : depth < tree.calls) : value env depth tree = .error .tooDeep := by
  induction depth generalizing tree result with
  | zero => rfl
  | succ depth ih =>
    cases tree with
    | number _ =>
      simp only [calls] at deep
      omega
    | name _ =>
      simp only [calls] at deep
      omega
    | call f argument =>
      obtain ⟨a, evaluated, _⟩ := ok_of_bind done
      simp only [calls] at deep
      rw [value, ih evaluated (by omega)]
      rfl
    | unary op operand =>
      obtain ⟨a, evaluated, _⟩ := ok_of_bind done
      simp only [calls] at deep
      rw [value, ih evaluated (by omega)]
      rfl
    | binary op left right =>
      have whole := spine_eval env [] (binary op left right)
      have counted := spine_calls_iff depth [] (binary op left right)
      rw [done, spine] at whole
      rw [spine] at counted
      have outside : ¬ (binary op left right).calls ≤ depth + 1 := by omega
      obtain ⟨start, evaluated, followed⟩ := ok_of_bind whole
      simp only [value]
      by_cases first : depth < (spine [(op, right)] left).1.calls
      · simp only [ih evaluated first]
        rfl
      · have enough := value_eq_eval env (Nat.not_lt.mp first)
        have deeper : ∃ step ∈ (spine [(op, right)] left).2, depth < step.2.calls := by
          by_cases shallow : ∀ step ∈ (spine [(op, right)] left).2, step.2.calls ≤ depth
          · exact absurd (counted.mp ⟨Nat.not_lt.mp first, shallow⟩).1 outside
          · simpa using shallow
        simp only [enough, evaluated]
        exact follow_too_deep ih _ followed deeper
    | assign x inner => cases done

/-- The count is the depth that is needed, no more and no less. -/
theorem value_iff_calls {tree : Tree} {result : Float} (done : eval env tree = .ok result)
    (depth : Nat) : value env depth tree = .ok result ↔ tree.calls ≤ depth := by
  constructor
  · intro evaluated
    apply Nat.not_lt.mp
    intro deep
    rw [too_deep_of_calls done deep] at evaluated
    cases evaluated
  · intro enough
    rw [value_eq_eval env enough, done]

end TooDeep

end Tree

theorem statement_evaluated {words : List Token} {tree : Tree} (statement : Statement words tree) :
    ∃ xs, Derives .expression xs tree.evaluated ∧
      ∀ limit, Nested limit words → Nested limit xs := by
  cases statement with
  | expression derives =>
    have same : tree.evaluated = tree := by
      cases tree with
      | assign x value => exact absurd rfl (derives_not_assign derives x value)
      | _ => rfl
    rw [same]
    exact ⟨words, derives, fun limit nested => nested⟩
  | @assignment _ equal xs value sign derives =>
    exact ⟨xs, derives, fun limit nested => nested_assigned sign nested⟩

theorem append_ne_of_last {text tail other : String} {c d : Char}
    (left : tail.toList.getLast? = some c) (right : other.toList.getLast? = some d)
    (differs : c ≠ d) : text ++ tail ≠ other := by
  intro same
  rw [← same, String.toList_append, List.getLast?_append, left] at right
  exact differs (Option.some.inj right)

theorem append_ne_of_first {front text other : String} {c d : Char}
    (left : front.toList.head? = some c) (right : other.toList.head? = some d)
    (differs : c ≠ d) : front ++ text ≠ other := by
  intro same
  rw [← same, String.toList_append, List.head?_append, left] at right
  exact differs (Option.some.inj right)

theorem Fault.message_too_deep_iff (fault : Fault) :
    fault.message = "expression is nested too deeply" ↔ fault = .tooDeep := by
  have first : "expression is nested too deeply".toList.head? = some 'e' := by decide
  have last : "expression is nested too deeply".toList.getLast? = some 'y' := by decide
  constructor
  · intro same
    cases fault with
    | unknownVariable name =>
      have ends : " is not a valid variable name".toList.getLast? = some 'e' := by decide
      exact absurd same (append_ne_of_last ends last (by decide))
    | unknownFunction name =>
      have ends : " is not a valid function name".toList.getLast? = some 'e' := by decide
      exact absurd same (append_ne_of_last ends last (by decide))
    | constantTarget name =>
      have other : "Can't change value of a constant" ≠ "expression is nested too deeply" := by
        decide
      exact absurd same other
    | notBinary op =>
      have starts : "Unexpected binary operator: ".toList.head? = some 'U' := by decide
      exact absurd same (append_ne_of_first starts first (by decide))
    | notUnary op =>
      have starts : "Unexpected unary operator: ".toList.head? = some 'U' := by decide
      exact absurd same (append_ne_of_first starts first (by decide))
    | misplacedAssignment tree =>
      have starts : "Unexpected expression type: ".toList.head? = some 'U' := by decide
      exact absurd same (append_ne_of_first starts first (by decide))
    | tooDeep => rfl
  · rintro rfl
    rfl

namespace Environment

theorem functions_of_step (env : Environment) (line : String) :
    (env.step line).environment.functions = env.functions := by
  rcases env.step_cases line with ⟨_, _, _, left⟩ | ⟨_, _, _, _, _, _, left⟩ |
    ⟨_, _, _, _, _, _, left⟩
  · rw [left]
  · rw [left]
  · rw [left]

theorem total_of_functions {later env : Environment} (same : later.functions = env.functions)
    (total : env.Total) : later.Total := by
  intro f function found argument
  rw [same] at found
  exact total f function found argument

theorem execute_not_too_deep {env : Environment} (total : env.Total) {line : String}
    {tokens : List Token} {tree : Tree} (read : Reading.ofLine line = .ok ⟨tokens, tree⟩) :
    env.execute tree ≠ .error .tooDeep := by
  have guarded := guarded_execute total read
  generalize env.execute tree = outcome at guarded
  generalize tree.checks = checks at guarded
  cases guarded with
  | value pass => simp
  | @fault _ _ check pass fails =>
    cases check <;> simp [Check.fault]

theorem step_not_too_deep {env : Environment} (total : env.Total) (line : String)
    (details : Option String) :
    (env.step line).answer ≠ .error "expression is nested too deeply" details := by
  cases read : Reading.ofLine line with
  | error refusal =>
    rw [(step_of_refusal env read).1]
    simp [Refusal.answer]
  | ok reading =>
    obtain ⟨tokens, tree⟩ := reading
    have deep := execute_not_too_deep total read
    rw [(step_of_reading env read).1]
    cases executed : env.execute tree with
    | ok done => simp [told]
    | error fault =>
      intro same
      simp only [told, Answer.error.injEq] at same
      rw [(Fault.message_too_deep_iff fault).mp same.1] at executed
      exact deep executed

theorem run_not_too_deep {env : Environment} (total : env.Total) (lines : List String) :
    ∀ step ∈ env.steps lines, ∀ details,
      step.answer ≠ .error "expression is nested too deeply" details := by
  induction lines generalizing env with
  | nil => simp [steps]
  | cons line lines ih =>
    rw [steps]
    have next := total_of_functions (functions_of_step env line) total
    exact List.forall_mem_cons.mpr ⟨step_not_too_deep total line, ih next⟩

end Environment

/-- A line with some brackets open at once is evaluated with five times that depth and five more,
however long its chains are; the count of its tree says exactly how much it takes. No line that can
be read needs more than 550, which is within the limit. So no line is ever told that the evaluation
goes too deep, unless a function of the session fails in this way. -/
theorem reading_leaves_depth :
    (∀ line tokens tree, Reading.ofLine line = .ok ⟨tokens, tree⟩ →
      (∀ brackets, Nested brackets (body tokens) →
        tree.evaluated.calls ≤ 5 * brackets + 5 ∧
          ∀ env depth, 5 * brackets + 5 ≤ depth →
            tree.evaluated.value env depth = tree.evaluated.eval env) ∧
      (∀ env result, tree.evaluated.eval env = .ok result → ∀ depth,
        tree.evaluated.value env depth = .ok result ↔ tree.evaluated.calls ≤ depth) ∧
      Nested Tree.nestingLimit (body tokens) ∧ tree.evaluated.calls ≤ 550 ∧
        550 < Tree.depthLimit) ∧
    ∀ env : Environment, env.Total → ∀ lines, ∀ step ∈ env.steps lines, ∀ details,
      step.answer ≠ .error "expression is nested too deeply" details := by
  constructor
  · intro line tokens tree read
    obtain ⟨words, rfl, spread, statement, nested⟩ := (reading_iff _ _ _).mp read
    rw [body_of_spread spread]
    obtain ⟨xs, derives, within⟩ := statement_evaluated statement
    have bound : ∀ brackets, Nested brackets words →
        tree.evaluated.calls ≤ 5 * brackets + 5 := by
      intro brackets few
      exact (derives_calls derives (within brackets few)).1
    refine ⟨fun brackets few => ⟨bound brackets few, fun env depth enough => ?_⟩,
      fun env result done => Tree.value_iff_calls done, nested, bound _ nested, by decide⟩
    exact Tree.value_eq_eval env (Nat.le_trans (bound brackets few) enough)
  · intro env total lines
    exact Environment.run_not_too_deep total lines

/-- Each of the five is needed: for the sign, for an operand of each level and for the argument. -/
theorem one_bracket_ten_evaluations :
    ∃ tokens tree, Reading.ofLine "x = -1 + 2 * 3 ^ sin(-4 + 5 * 6 ^ 7)" = .ok ⟨tokens, tree⟩ ∧
      Nested 1 (body tokens) ∧ tree.evaluated.calls = 5 * 1 + 5 ∧
      (∃ result, Environment.builtin.Total ∧
        tree.evaluated.value .builtin 10 = .ok result ∧
        tree.evaluated.value .builtin 9 ≠ .ok result) ∧
      ∀ step ∈ Environment.builtin.steps ["x = -1 + 2 * 3 ^ sin(-4 + 5 * 6 ^ 7)", "x"], ∀ details,
        step.answer ≠ .error "expression is nested too deeply" details := by
  let inner : Tree := .unary .neg (.binary .add (Reader.literal "4")
    (.binary .mul (Reader.literal "5") (.binary .pow (Reader.literal "6") (Reader.literal "7"))))
  let tree : Tree := .assign "x" (.unary .neg (.binary .add (Reader.literal "1")
    (.binary .mul (Reader.literal "2") (.binary .pow (Reader.literal "3") (.call "sin" inner)))))
  obtain ⟨⟨tokens, _⟩, found, shown⟩ : ∃ reading,
      (Reading.ofLine "x = -1 + 2 * 3 ^ sin(-4 + 5 * 6 ^ 7)").toOption = some reading ∧
        (reading.tree, decide (Nested 1 (body reading.tokens))) = (tree, true) :=
    Option.map_eq_some_iff.mp (by decide +kernel)
  obtain ⟨rfl, few⟩ := Prod.mk.inj shown
  have few := of_decide_eq_true few
  have read := ok_of_toOption found
  obtain ⟨depths, exact, _⟩ := reading_leaves_depth.1 _ _ _ read
  obtain ⟨result, done⟩ : ∃ result, tree.evaluated.eval .builtin = .ok result := ⟨_, rfl⟩
  have count : tree.evaluated.calls = 5 * 1 + 5 := by decide
  refine ⟨tokens, tree, read, few, count, ⟨result, Environment.builtin_total, ?_, ?_⟩, ?_⟩
  · rw [(depths 1 few).2 .builtin 10 (by decide), done]
  · rw [ne_eq, exact .builtin result done 9, count]
    decide
  · exact reading_leaves_depth.2 .builtin Environment.builtin_total _

end Reckoner

import Reckoner.Proofs.Evaluation

/- Working off the left side of a tree against plain recursion, at any depth. As long as the depth
   does not run out, both come to the same value or to the same fault, whatever the tree is. A chain
   of operations runs out of depth through one of its operands only, however many they are. -/
namespace Reckoner.Tree

def joined (first : Tree) (steps : List (Op × Tree)) : Tree :=
  steps.foldl (fun left step => binary step.1 left step.2) first

theorem joined_spine (steps : List (Op × Tree)) (tree : Tree) :
    joined (spine steps tree).1 (spine steps tree).2 = joined tree steps := by
  fun_induction spine steps tree with
  | case1 steps op left right ih => exact ih
  | case2 => rfl

theorem spine_first (steps : List (Op × Tree)) (tree : Tree) :
    (spine steps tree).1.isBinary = false := by
  fun_induction spine steps tree with
  | case1 steps op left right ih => exact ih
  | case2 steps tree none => cases tree <;> simp_all [isBinary]

theorem spine_joined {first : Tree} (single : first.isBinary = false)
    (steps : List (Op × Tree)) : spine [] (joined first steps) = (first, steps) := by
  have onward : ∀ later, spine later (joined first steps) = spine (steps ++ later) first := by
    intro later
    clear single
    induction steps generalizing first with
    | nil => rfl
    | cons step steps ih => exact ih
  rw [onward, List.append_nil]
  cases first <;> simp_all [spine, isBinary]

theorem joined_height (first : Tree) (steps : List (Op × Tree)) :
    first.height + steps.length ≤ (joined first steps).height := by
  induction steps generalizing first with
  | nil => exact Nat.le_refl _
  | cons step steps ih =>
    have later := ih (binary step.1 first step.2)
    simp only [height] at later
    simp only [joined, List.foldl_cons, List.length_cons] at later ⊢
    omega

theorem joined_concat (first : Tree) {steps : List (Op × Tree)} (some : steps ≠ []) :
    ∃ before op right, steps = before ++ [(op, right)] ∧
      joined first steps = binary op (joined first before) right := by
  obtain ⟨before, ⟨op, right⟩, rfl⟩ : ∃ before last, steps = before ++ [last] :=
    ⟨_, _, (List.dropLast_concat_getLast some).symm⟩
  exact ⟨before, op, right, rfl, by simp [joined]⟩

theorem joined_calls {first : Tree} (single : first.isBinary = false) {steps : List (Op × Tree)}
    (some : steps ≠ []) (depth : Nat) :
    (joined first steps).calls ≤ depth + 1 ↔
      first.calls ≤ depth ∧ ∀ step ∈ steps, step.2.calls ≤ depth := by
  have binary : (joined first steps).isBinary := by
    obtain ⟨before, op, right, _, shape⟩ := joined_concat first some
    rw [shape]
    rfl
  have counted := spine_calls_iff depth [] (joined first steps)
  rw [spine_joined single, if_pos binary] at counted
  rw [counted]
  exact (and_iff_left (List.forall_mem_nil _)).symm

section Depth

variable {α β : Type}

/-- What comes of a computation, unless its depth runs out, comes of the other one as well. -/
def Reaches (limited whole : Except Fault α) : Prop :=
  limited ≠ .error .tooDeep → limited = whole

theorem reaches_bind {limited whole : Except Fault α} {next further : α → Except Fault β}
    (first : Reaches limited whole) (after : ∀ value, Reaches (next value) (further value)) :
    Reaches (limited >>= next) (whole >>= further) := by
  intro enough
  cases limited with
  | error fault =>
    have same : .error fault = whole := first fun deep => enough (by rw [deep]; rfl)
    rw [← same]
    rfl
  | ok value =>
    have same : .ok value = whole := first (by simp)
    rw [← same]
    exact after value enough

theorem reaches_same (outcome : Except Fault α) : Reaches outcome outcome := fun _ => rfl

variable {env : Environment} {depth : Nat}

theorem reaches_follow (operands : ∀ tree, Reaches (value env depth tree) (eval env tree))
    (steps : List (Op × Tree)) (start : Float) :
    Reaches
      (steps.foldlM (fun result step => value env depth step.2 >>= step.1.combine result) start)
      (follow env steps start) := by
  induction steps generalizing start with
  | nil => exact reaches_same _
  | cons step steps ih =>
    rw [List.foldlM_cons, follow_cons]
    exact reaches_bind (reaches_bind (operands step.2) fun _ => reaches_same _) ih

/-- Unless the depth runs out, the evaluation along the left side does what recursion does. -/
theorem value_reaches_eval (env : Environment) (depth : Nat) (tree : Tree) :
    Reaches (value env depth tree) (eval env tree) := by
  induction depth generalizing tree with
  | zero => exact fun enough => absurd rfl enough
  | succ depth ih =>
    cases tree with
    | number _ => exact reaches_same _
    | name _ => exact reaches_same _
    | call f argument => exact reaches_bind (ih argument) fun _ => reaches_same _
    | unary op operand => exact reaches_bind (ih operand) fun _ => reaches_same _
    | binary op left right =>
      have whole := spine_eval env [] (binary op left right)
      have alone : (eval env (binary op left right) >>= follow env []) =
          eval env (binary op left right) := by
        cases eval env (binary op left right) <;> rfl
      rw [alone, spine] at whole
      rw [← whole]
      exact reaches_bind (ih _) fun start => reaches_follow ih _ start
    | assign x inner =>
      intro enough
      simp only [value] at enough ⊢
      split at enough
      · rename_i fits
        rw [if_pos fits]
        rfl
      · exact absurd rfl enough

theorem value_joined {first : Tree} (single : first.isBinary = false) {steps : List (Op × Tree)}
    (some : steps ≠ []) :
    value env (depth + 1) (joined first steps) =
      value env depth first >>= fun start =>
        steps.foldlM (fun result step => value env depth step.2 >>= step.1.combine result)
          start := by
  have whole := spine_joined single steps
  obtain ⟨before, op, right, _, shape⟩ := joined_concat first some
  rw [shape, spine] at whole
  rw [shape]
  simp only [value, whole]

theorem bind_not_too_deep {outcome : Except Fault α} {next : α → Except Fault β}
    (first : outcome ≠ .error .tooDeep) (after : ∀ value, next value ≠ .error .tooDeep) :
    (outcome >>= next) ≠ .error .tooDeep := by
  cases outcome with
  | error fault =>
    intro same
    cases same
    exact first rfl
  | ok value => exact after value

theorem combine_not_too_deep (op : Op) (a b : Float) : op.combine a b ≠ .error .tooDeep := by
  cases op <;> simp [Op.combine]

theorem joined_not_too_deep {first : Tree} (single : first.isBinary = false)
    {steps : List (Op × Tree)} (some : steps ≠ [])
    (start : value env depth first ≠ .error .tooDeep)
    (operands : ∀ step ∈ steps, value env depth step.2 ≠ .error .tooDeep) :
    value env (depth + 1) (joined first steps) ≠ .error .tooDeep := by
  rw [value_joined single some]
  refine bind_not_too_deep start fun result => ?_
  clear some start
  induction steps generalizing result with
  | nil => simp [pure, Except.pure]
  | cons step steps ih =>
    obtain ⟨here, others⟩ := List.forall_mem_cons.mp operands
    rw [List.foldlM_cons]
    have combined := bind_not_too_deep here (combine_not_too_deep step.1 result)
    exact bind_not_too_deep combined (ih others)

end Depth

/-- Evaluation along the left side agrees with plain recursion on every tree, wherever the depth
does not run out. Every tree is a chain on an operand that is none, maybe with no operation at all,
and the length of chains costs no depth: a chain gets what recursion gives if none of its operands
runs out of the depth below it, and the depth that suffices for a chain is the one that suffices for
each of its operands, and one more. Only the count of a misplaced assignment goes by all of its
height, for it is written out. -/
theorem evaluated_as_by_recursion (env : Environment) (depth : Nat) :
    (∀ tree, value env depth tree ≠ .error .tooDeep → value env depth tree = eval env tree) ∧
      (∀ tree, ∃ first steps, first.isBinary = false ∧ tree = joined first steps) ∧
      (∀ first steps, first.isBinary = false → steps ≠ [] →
        value env depth first ≠ .error .tooDeep →
        (∀ step ∈ steps, value env depth step.2 ≠ .error .tooDeep) →
          value env (depth + 1) (joined first steps) = eval env (joined first steps) ∧
            eval env (joined first steps) ≠ .error .tooDeep) ∧
      (∀ first steps, first.isBinary = false → steps ≠ [] →
        ((joined first steps).calls ≤ depth + 1 ↔
          first.calls ≤ depth ∧ ∀ step ∈ steps, step.2.calls ≤ depth)) ∧
      ∀ tree, tree.calls ≤ depth → value env depth tree = eval env tree := by
  refine ⟨value_reaches_eval env depth, fun tree => ?_, ?_, ?_, fun tree => value_eq_eval env⟩
  · exact ⟨_, _, spine_first [] tree, (joined_spine [] tree).symm⟩
  · intro first steps single some start operands
    have enough := joined_not_too_deep single some start operands
    have same := value_reaches_eval env (depth + 1) _ enough
    exact ⟨same, same ▸ enough⟩
  · exact fun first steps single some => joined_calls single some depth

def ones (count : Nat) : Tree := joined (number 1) (List.replicate count (.add, number 1))

theorem assigned_ones_too_deep (env : Environment) {depth count : Nat} (long : depth ≤ count) :
    value env (depth + 2) (unary .neg (assign "x" (ones count))) = .error .tooDeep := by
  have tall : ¬ writingCost * (assign "x" (ones count)).height ≤ depth := by
    have height := joined_height (number 1) (List.replicate count (.add, number 1))
    rw [List.length_replicate] at height
    simp only [Tree.height, ones, writingCost] at height ⊢
    omega
  simp only [value, if_neg tall]
  rfl

theorem long_chains_need_no_depth :
    value .builtin 1 (number 1) ≠ .error .tooDeep ∧ value .builtin 1 (name "y") ≠ .error .tooDeep ∧
      value .builtin 2 (ones 5000) = eval .builtin (ones 5000) ∧ (ones 5000).calls ≤ 2 ∧
      (let steps := (Op.neg, number 1) :: List.replicate 5000 (Op.add, name "y")
      value .builtin 2 (joined (number 1) steps) = eval .builtin (joined (number 1) steps)) := by
  obtain ⟨_, _, chains, counts, _⟩ := evaluated_as_by_recursion .builtin 1
  obtain ⟨limited, _, _, _, counted⟩ := evaluated_as_by_recursion .builtin 2
  have one : value .builtin 1 (number 1) ≠ .error .tooDeep := by simp [value]
  have unknown : value .builtin 1 (name "y") ≠ .error .tooDeep := by
    have missing : value .builtin 1 (name "y") = .error (.unknownVariable "y") := rfl
    simp [missing]
  have some : List.replicate 5000 (Op.add, number 1) ≠ [] := List.cons_ne_nil _ _
  have few : (ones 5000).calls ≤ 2 := by
    refine (counts _ _ rfl some).mpr ⟨Nat.le_refl 1, fun step member => ?_⟩
    rw [List.eq_of_mem_replicate member]
    exact Nat.le_refl 1
  refine ⟨one, unknown, counted _ few, few, limited _ ?_⟩
  have operands : ∀ step ∈ (Op.neg, number 1) :: List.replicate 5000 (Op.add, name "y"),
      value .builtin 1 step.2 ≠ .error .tooDeep := by
    refine List.forall_mem_cons.mpr ⟨one, fun step member => ?_⟩
    rw [List.eq_of_mem_replicate member]
    exact unknown
  obtain ⟨same, enough⟩ := chains _ _ rfl (List.cons_ne_nil _ _) one operands
  rw [same]
  exact enough

/-- A long chain that is written out, since it stands in a misplaced assignment, runs out of depth
by its length alone. -/
theorem written_chain_too_deep :
    value .builtin depthLimit (unary .neg (assign "x" (ones 1))) =
        .error (.misplacedAssignment (assign "x" (ones 1))) ∧
      eval .builtin (unary .neg (assign "x" (ones 3000))) =
        .error (.misplacedAssignment (assign "x" (ones 3000))) ∧
      value .builtin depthLimit (unary .neg (assign "x" (ones 3000))) = .error .tooDeep := by
  have recursive : ∀ tree, eval .builtin (unary .neg (assign "x" tree)) =
      .error (.misplacedAssignment (assign "x" tree)) := fun _ => rfl
  have long : 998 ≤ 3000 := by decide
  exact ⟨rfl, recursive _, assigned_ones_too_deep .builtin long⟩

end Reckoner.Tree

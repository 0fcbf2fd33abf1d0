import Reckoner.Evaluation
import Reckoner.Proofs.Grammar
import Reckoner.Tree.OfTokens

/- The value of a tree by plain recursion, and how deep the evaluation along the left side goes.
   Where the depth suffices, both evaluations agree; trees read from lines never need more than
   there is. -/
namespace Reckoner

theorem ok_of_bind {ε α β : Type} {first : Except ε α} {next : α → Except ε β} {result : β}
    (done : (first >>= next) = .ok result) :
    ∃ value, first = .ok value ∧ next value = .ok result := by
  cases first with
  | error fault => cases done
  | ok value => exact ⟨value, rfl, done⟩

namespace Tree

def eval (env : Environment) : Tree → Except Fault Float
  | number value => .ok value
  | name x => env.resolve x
  | call f argument => eval env argument >>= env.apply f
  | unary op operand => eval env operand >>= op.applySign
  | binary op left right =>
    eval env left >>= fun a => eval env right >>= op.combine a
  | tree@(assign ..) => .error (.misplacedAssignment tree)

def isBinary : Tree → Bool
  | binary .. => true
  | _ => false

/-- How many evaluations are open at once. A left operand that is a chain itself is no evaluation
of its own. -/
def calls : Tree → Nat
  | number _ => 1
  | name _ => 1
  | call _ argument => argument.calls + 1
  | unary _ operand => operand.calls + 1
  | binary _ left right =>
    max (left.calls + if left.isBinary then 0 else 1) (right.calls + 1)
  | tree@(assign ..) => writingCost * tree.height + 1

def follow (env : Environment) (steps : List (Op × Tree)) (start : Float) : Except Fault Float :=
  steps.foldlM (fun result step => eval env step.2 >>= step.1.combine result) start

theorem follow_cons (env : Environment) (step : Op × Tree) (steps : List (Op × Tree))
    (start : Float) :
    follow env (step :: steps) start =
      (eval env step.2 >>= step.1.combine start) >>= follow env steps := by
  simp only [follow, List.foldlM_cons]
  rfl

theorem spine_eval (env : Environment) (steps : List (Op × Tree)) (tree : Tree) :
    (eval env (spine steps tree).1 >>= follow env (spine steps tree).2) =
      (eval env tree >>= follow env steps) := by
  fun_induction spine steps tree with
  | case1 steps op left right ih =>
    rw [ih, eval, bind_assoc]
    rfl
  | case2 => rfl

theorem spine_calls_iff (depth : Nat) (steps : List (Op × Tree)) (tree : Tree) :
    ((spine steps tree).1.calls ≤ depth ∧ ∀ step ∈ (spine steps tree).2, step.2.calls ≤ depth) ↔
      tree.calls ≤ depth + (if tree.isBinary then 1 else 0) ∧
        ∀ step ∈ steps, step.2.calls ≤ depth := by
  fun_induction spine steps tree with
  | case1 steps op left right ih =>
    have here : left.calls ≤ depth + (if left.isBinary then 1 else 0) ∧ right.calls ≤ depth ↔
        (binary op left right).calls ≤ depth + 1 := by
      rw [calls]
      cases left.isBinary <;> simp only [if_true, Bool.false_eq_true, if_false] <;> omega
    rw [ih, List.forall_mem_cons, ← and_assoc, here]
    rfl
  | case2 steps tree none =>
    have single : tree.isBinary = false := by
      cases tree <;> simp_all [isBinary]
    rw [single]
    rfl

theorem foldlM_eq_follow {depth : Nat} {env : Environment} (steps : List (Op × Tree))
    (same : ∀ step ∈ steps, value env depth step.2 = eval env step.2) (start : Float) :
    steps.foldlM (fun result step => value env depth step.2 >>= step.1.combine result) start =
      follow env steps start := by
  induction steps generalizing start with
  | nil => rfl
  | cons step steps ih =>
    obtain ⟨first, rest⟩ := List.forall_mem_cons.mp same
    rw [follow_cons, List.foldlM_cons, first]
    congr 1
    funext result
    exact ih rest result

theorem calls_pos (tree : Tree) : 0 < tree.calls := by
  cases tree with
  | binary op left right =>
    simp only [calls]
    omega
  | _ => simp [calls]

theorem value_eq_eval (env : Environment) {depth : Nat} {tree : Tree}
    (enough : tree.calls ≤ depth) : value env depth tree = eval env tree := by
  induction depth generalizing tree with
  | zero =>
    have := tree.calls_pos
    omega
  | succ depth ih =>
    cases tree with
    | number _ => rfl
    | name _ => rfl
    | call f argument =>
      simp only [calls] at enough
      simp only [value, eval, ih (Nat.le_of_succ_le_succ enough)]
    | unary op operand =>
      simp only [calls] at enough
      simp only [value, eval, ih (Nat.le_of_succ_le_succ enough)]
    | binary op left right =>
      have within := (spine_calls_iff depth [] (binary op left right)).mpr
        ⟨enough, List.forall_mem_nil _⟩
      have whole := spine_eval env [] (binary op left right)
      rw [spine] at within whole
      have same := foldlM_eq_follow _ (fun step member => ih (within.2 step member))
      simp only [value, ih within.1, same]
      rw [whole]
      cases eval env (binary op left right) <;> rfl
    | assign x inner =>
      simp only [calls] at enough
      simp only [value, eval, if_pos (Nat.le_of_succ_le_succ enough)]

end Tree

namespace Grammar
open Token

/-- Five evaluations are open at most for every bracket around a place, and five more outside of
them all: for a sign and for an operand of each level. -/
theorem derives_calls {phrase : Phrase} {xs : List Token} {tree : Tree}
    (derives : Derives phrase xs tree) {room : Nat} (nested : Nested room xs) :
    tree.calls ≤ 5 * room + phrase.rank + 1 ∧
      (phrase ≠ .expression → tree.isBinary = false → tree.calls ≤ 5 * room + 1) := by
  -- a chain's first operand costs one evaluation, whatever its level, unless it is a chain itself;
  -- so the bound by rank alone would not carry the induction
  induction derives generalizing room with
  | unsigned _ ih =>
    have sum := (ih nested).1
    simp only [Phrase.rank] at sum ⊢
    exact ⟨by omega, fun outside => absurd rfl outside⟩
  | signed sign _ ih =>
    have kind := sign_kind sign
    have sum := (ih (nested_tail kind.2.1 kind.2.2 nested)).1
    simp only [Tree.calls, Phrase.rank] at sum ⊢
    exact ⟨by omega, fun outside => absurd rfl outside⟩
  | single operands _ ih =>
    have rank := operands_rank operands
    obtain ⟨bound, single⟩ := ih nested
    refine ⟨by omega, fun _ notBinary => single ?_ notBinary⟩
    cases operands <;> simp
  | @joined chain phrase token xs ys op left right operands before joint last leftIh rightIh =>
    have rank := operands_rank operands
    have kind := joint_kind joint
    have after := nested_right nested (derives_balanced before)
    have inside : chain ≠ .expression := by
      cases operands <;> simp
    obtain ⟨leftBound, leftSingle⟩ := leftIh (nested_left nested)
    have rightBound := (rightIh (nested_tail kind.2.1 kind.2.2 after)).1
    refine ⟨?_, fun _ notBinary => by simp [Tree.isBinary] at notBinary⟩
    rw [Tree.calls, Nat.max_le]
    refine ⟨?_, by omega⟩
    cases binary : left.isBinary with
    | true => simpa using leftBound
    | false =>
      have bound := leftSingle inside binary
      simp only [Bool.false_eq_true, if_false]
      omega
  | number => simp [Reader.literal, Tree.calls, Phrase.rank]
  | name => simp [Tree.calls, Phrase.rank]
  | call _ first _ _ ih =>
    obtain ⟨less, rfl, inside⟩ := nested_inside first (nested_tail (by simp) (by simp) nested)
    have bound := (ih (nested_left inside)).1
    simp only [Tree.calls, Phrase.rank] at bound ⊢
    exact ⟨by omega, fun _ _ => by omega⟩
  | bracketed first _ _ ih =>
    obtain ⟨less, rfl, inside⟩ := nested_inside first nested
    have bound := (ih (nested_left inside)).1
    simp only [Phrase.rank] at bound ⊢
    exact ⟨by omega, fun _ _ => by omega⟩

end Grammar

namespace Tree

theorem value_of_derives (env : Environment) {xs : List Token} {tree : Tree}
    (derives : Grammar.Derives .expression xs tree) (nested : Token.Nested nestingLimit xs) :
    value env depthLimit tree = eval env tree := by
  have bound := (Grammar.derives_calls derives nested).1
  have room : 5 * nestingLimit + Grammar.Phrase.expression.rank + 1 ≤ depthLimit := by decide
  exact value_eq_eval env (by omega)

end Tree
end Reckoner

import Reckoner.Environment

/- The values of trees, and what a statement does to its environment. -/
namespace Reckoner

namespace Op

def combine : Op → Float → Float → Except Fault Float
  | add, a, b => .ok (a + b)
  | sub, a, b => .ok (a - b)
  | mul, a, b => .ok (a * b)
  | div, a, b => .ok (Arithmetic.divide a b)
  | pow, a, b => .ok (Arithmetic.power a b)
  | op, _, _ => .error (.notBinary op)

def applySign : Op → Float → Except Fault Float
  | neg, a => .ok (-a)
  | pos, a => .ok a
  | op, _ => .error (.notUnary op)

end Op

namespace Tree

/-- A chain of operations on one tree: its innermost left operand, and before `steps` each operator
with its right operand, from the inside out. -/
def spine (steps : List (Op × Tree)) : Tree → Tree × List (Op × Tree)
  | binary op left right => spine ((op, right) :: steps) left
  | tree => (tree, steps)

/-- What every level of a tree takes of the depth when the tree is written out. -/
def writingCost : Nat := 3

/-- The value of a tree, operands from left to right. Operators along the left side are worked off
one after the other, so only the other operands, signs and arguments go deeper. -/
def value (env : Environment) : (depth : Nat) → Tree → Except Fault Float
  | 0, _ => .error .tooDeep
  | depth + 1, tree =>
    match tree with
    | number value => .ok value
    | name x => env.resolve x
    | call f argument => value env depth argument >>= env.apply f
    | unary op operand => value env depth operand >>= op.applySign
    | binary op left right =>
      let (first, steps) := spine [(op, right)] left
      value env depth first >>= fun start =>
        steps.foldlM (fun result step => value env depth step.2 >>= step.1.combine result) start
    | assign .. =>
      if writingCost * tree.height ≤ depth then .error (.misplacedAssignment tree)
      else .error .tooDeep

def depthLimit : Nat := 1000

end Tree

structure Result where
  name : Option String
  value : Float
  deriving DecidableEq, Repr

namespace Environment

def execute (env : Environment) : Tree → Except Fault (Result × Environment)
  | .assign name tree =>
    match tree.value env Tree.depthLimit with
    | .error fault => .error fault
    | .ok value =>
      match env.assign name value with
      | .error fault => .error fault
      | .ok changed => .ok (⟨some name, value⟩, changed)
  | tree =>
    match tree.value env Tree.depthLimit with
    | .error fault => .error fault
    | .ok value => .ok (⟨none, value⟩, env)

end Environment
end Reckoner

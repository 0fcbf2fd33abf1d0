import Reckoner.Number.Text
import Reckoner.Text.Quoted

/- Trees: what a line means. A tree may carry any operator at any node and an assignment anywhere;
   trees read from text carry binary operators with two operands, signs with one, and an
   assignment at the top only. -/
namespace Reckoner

inductive Op
  | add
  | sub
  | mul
  | div
  | pow
  | neg
  | pos
  deriving DecidableEq, Repr

namespace Op

def name : Op → String
  | add => "ADD"
  | sub => "SUB"
  | mul => "MUL"
  | div => "DIV"
  | pow => "POW"
  | neg => "NEG"
  | pos => "POS"

def levels : List (List Op) :=
  [[add, sub], [mul, div], [pow]]

def level? (op : Op) : Option Nat :=
  levels.findIdx? (·.contains op)

def noLevel (op : Op) : String :=
  "Unknown binary operator: " ++ op.name

end Op

inductive Tree
  | number (value : Float)
  | name (name : String)
  | call (function : String) (argument : Tree)
  | unary (op : Op) (operand : Tree)
  | binary (op : Op) (left right : Tree)
  | assign (name : String) (value : Tree)
  deriving DecidableEq, Repr

namespace Tree

def form : Tree → String
  | number _ => "float"
  | name _ => "Variable"
  | call .. => "FunctionCall"
  | unary .. => "UnaryOperation"
  | binary .. => "BinaryOperation"
  | assign .. => "Assignment"

def height : Tree → Nat
  | number _ => 1
  | name _ => 1
  | call _ argument => argument.height + 1
  | unary _ operand => operand.height + 1
  | binary _ left right => max left.height right.height + 1
  | assign _ value => value.height + 1

def describe (tree : Tree) : String :=
  match tree with
  | number value => Number.text value
  | name x => tree.form ++ "(name=" ++ Text.quoted x ++ ")"
  | call f argument =>
    tree.form ++ "(name=" ++ Text.quoted f ++ ", argument=" ++ argument.describe ++ ")"
  | unary op operand =>
    tree.form ++ "(operator=" ++ op.name ++ ", operand=" ++ operand.describe ++ ")"
  | binary op left right =>
    tree.form ++ "(operator=" ++ op.name ++ ", left=" ++ left.describe ++ ", right="
      ++ right.describe ++ ")"
  | assign x value =>
    tree.form ++ "(name=" ++ Text.quoted x ++ ", expression=" ++ value.describe ++ ")"

end Tree
end Reckoner

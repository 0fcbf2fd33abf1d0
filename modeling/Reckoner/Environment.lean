import Reckoner.Number.Arithmetic
import Reckoner.Table
import Reckoner.Tree

/- Environments: the constants, functions and variables that the names of a tree stand for. -/
namespace Reckoner

/-- A function from doubles to doubles. It has no value where it needs more depth than there is. -/
abbrev Function := Float → Option Float

inductive Fault
  | unknownVariable (name : String)
  | unknownFunction (name : String)
  | constantTarget (name : String)
  | notBinary (op : Op)
  | notUnary (op : Op)
  | misplacedAssignment (tree : Tree)
  | tooDeep
  deriving DecidableEq, Repr

namespace Fault

def message : Fault → String
  | unknownVariable name => Text.quoted name ++ " is not a valid variable name"
  | unknownFunction name => Text.quoted name ++ " is not a valid function name"
  | constantTarget _ => "Can't change value of a constant"
  | notBinary op => "Unexpected binary operator: " ++ op.name
  | notUnary op => "Unexpected unary operator: " ++ op.name
  | misplacedAssignment tree => "Unexpected expression type: " ++ tree.describe
  | tooDeep => "expression is nested too deeply"

end Fault

structure Environment where
  constants : Table Float
  functions : Table Function
  bindings : Table Float

namespace Environment

def builtinConstants : Table Float :=
  .ofList
    [("pi", Float.ofBits 0x400921FB54442D18),
     ("e", Float.ofBits 0x4005BF0A8B145769)]

/-- The function `ctg` is the tangent as well, which sessions rely on. -/
def builtinFunctions : Table Function :=
  .ofList
    [("cos", some ∘ Float.cos),
     ("sin", some ∘ Float.sin),
     ("tg", some ∘ Float.tan),
     ("ctg", some ∘ Float.tan)]

def fresh (constants : Table Float) (functions : Table Function) : Environment where
  constants := constants
  functions := functions
  bindings := .empty

def builtin : Environment :=
  fresh builtinConstants builtinFunctions

def resolve (env : Environment) (name : String) : Except Fault Float :=
  match env.bindings.get? name with
  | some value => .ok value
  | none =>
    match env.constants.get? name with
    | some value => .ok value
    | none => .error (.unknownVariable name)

def apply (env : Environment) (function : String) (argument : Float) : Except Fault Float :=
  match env.functions.get? function with
  | none => .error (.unknownFunction function)
  | some f =>
    match f argument with
    | some value => .ok value
    | none => .error .tooDeep

def assign (env : Environment) (name : String) (value : Float) : Except Fault Environment :=
  if env.constants.contains name then .error (.constantTarget name)
  else .ok { env with bindings := env.bindings.insert name value }

end Environment
end Reckoner

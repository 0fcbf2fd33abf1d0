import Reckoner.Proofs.Acceptance

/- Formulas are trees as they are written: numbers by their texts, and pairs of brackets that need
   not be there. Writing a formula adds the brackets that have to be there. -/
namespace Reckoner

structure Literal where
  text : String
  shape : Shape .number text.toList

structure Variable where
  name : String
  shape : Shape .identifier name.toList

structure FunctionName where
  name : String
  letters : OnlyLetters name

inductive Joiner
  | add
  | sub
  | mul
  | div
  | pow
  deriving DecidableEq, Repr

namespace Joiner

def op : Joiner → Op
  | add => .add
  | sub => .sub
  | mul => .mul
  | div => .div
  | pow => .pow

def token : Joiner → Token
  | add => ⟨.plus, "+"⟩
  | sub => ⟨.minus, "-"⟩
  | mul => ⟨.star, "*"⟩
  | div => ⟨.slash, "/"⟩
  | pow => ⟨.caret, "^"⟩

def level : Joiner → Nat
  | add | sub => 0
  | mul | div => 1
  | pow => 2

end Joiner

inductive Mark
  | minus
  | plus
  deriving DecidableEq, Repr

namespace Mark

def op : Mark → Op
  | minus => .neg
  | plus => .pos

def token : Mark → Token
  | minus => ⟨.minus, "-"⟩
  | plus => ⟨.plus, "+"⟩

end Mark

inductive Formula
  | number (literal : Literal)
  | name (x : Variable)
  | call (function : FunctionName) (argument : Formula)
  | signed (mark : Mark) (operand : Formula)
  | joined (joiner : Joiner) (left right : Formula)
  | bracketed (inner : Formula)

namespace Formula

/-- Where a formula stands: alone on a line or in brackets, behind a sign, or on one side of an
operator. -/
inductive Place
  | alone
  | behindSign
  | leftOf (joiner : Joiner)
  | rightOf (joiner : Joiner)
  deriving DecidableEq, Repr

namespace Place

def enclosesSigned : Place → Bool
  | alone => false
  | _ => true

/-- Whether a formula with the operator has to be put in brackets. Chains group to the left, so
an operator of the same level needs them on the right. -/
def enclosesJoined (inner : Joiner) : Place → Bool
  | alone | behindSign => false
  | leftOf outer => inner.level < outer.level
  | rightOf outer => inner.level ≤ outer.level

end Place

def tree : Formula → Tree
  | number literal => Reader.literal literal.text
  | name x => .name x.name
  | call function argument => .call function.name argument.tree
  | signed mark operand => .unary mark.op operand.tree
  | joined joiner left right => .binary joiner.op left.tree right.tree
  | bracketed inner => inner.tree

def inBrackets (tokens : List Token) : List Token :=
  ⟨.bracketOpen, "("⟩ :: (tokens ++ [⟨.bracketClose, ")"⟩])

def inBracketsIf (needed : Bool) (tokens : List Token) : List Token :=
  if needed then inBrackets tokens else tokens

def tokens (place : Place) : Formula → List Token
  | number literal => [⟨.number, literal.text⟩]
  | name x => [⟨.identifier, x.name⟩]
  | call function argument =>
    ⟨.identifier, function.name⟩ :: inBrackets (tokens .alone argument)
  | signed mark operand =>
    inBracketsIf place.enclosesSigned (mark.token :: tokens .behindSign operand)
  | joined joiner left right =>
    inBracketsIf (place.enclosesJoined joiner)
      (tokens (.leftOf joiner) left ++ joiner.token :: tokens (.rightOf joiner) right)
  | bracketed inner => inBrackets (tokens place inner)

def lineTokens (target : Option Variable) (formula : Formula) : List Token :=
  match target with
  | none => formula.tokens .alone
  | some x => ⟨.identifier, x.name⟩ :: ⟨.equal, "="⟩ :: formula.tokens .alone

def lineTree (target : Option Variable) (formula : Formula) : Tree :=
  match target with
  | none => formula.tree
  | some x => .assign x.name formula.tree

end Formula
end Reckoner

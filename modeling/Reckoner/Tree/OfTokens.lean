import Reckoner.Token.Layout
import Reckoner.Tree.Reader

/- The tree of a whole line, and the message for a line that has none. -/
namespace Reckoner

namespace Reader

def wholeExpression (depth : Nat) (tokens : List Token) : Except Failure Tree :=
  match (expression depth).read tokens with
  | .error failure => .error failure
  | .ok (tree, rest) =>
    if Kind.next rest = .lineEnd then .ok tree
    else .error (.rejected (.trailing (Kind.next rest)) rest)

/-- A line is an expression or assigns one to a name. Tokens after the first end of line do not
count, but the last token has to be one. -/
def statement (depth : Nat) (tokens : List Token) : Except Failure Tree :=
  if tokens.getLast?.map (·.kind) ≠ some .lineEnd then .error (.rejected .unended [])
  else
    match tokens with
    | ⟨.identifier, name⟩ :: ⟨.equal, _⟩ :: rest =>
      match wholeExpression depth rest with
      | .error failure => .error failure
      | .ok value => .ok (.assign name value)
    | _ => wholeExpression depth tokens

end Reader

namespace Tree

def nestingLimit : Nat := 109

def ofTokens (tokens : List Token) : Except Failure Tree :=
  Reader.statement nestingLimit tokens

end Tree

namespace Cause

def summary : Cause → String
  | unended => "Internal error, token list must end with END"
  | operandMissing => "Unexpected end of input, operand expected"
  | operandExpected found => "Operand expected, found " ++ found.name
  | bracketEmpty => "Empty parenthesis"
  | bracketUnclosed => "Unclosed bracket"
  | trailing found => "Unexpected " ++ found.name ++ " after the end of expression"

/-- The tokens on one line over a caret, which stands as far to the right as the tokens before the
wrong one reach when they are laid out by themselves. -/
def message (cause : Cause) (tokens : List Token) (index : Nat) : String :=
  let before := tokens.take index
  let column := (Token.layout before).length + if before.isEmpty then 0 else 1
  "Parser error: " ++ cause.summary ++ "\n" ++ Token.layout tokens ++ "\n"
    ++ String.ofList (List.replicate column ' ') ++ "^"

end Cause

def Failure.index (tokens rest : List Token) : Nat :=
  tokens.length - rest.length

end Reckoner

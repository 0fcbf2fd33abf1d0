/- Tokens: the words that a line is made of. -/
namespace Reckoner

inductive Kind
  | number
  | identifier
  | plus
  | minus
  | star
  | slash
  | caret
  | equal
  | bracketOpen
  | bracketClose
  | lineEnd
  deriving DecidableEq, Repr

def Kind.name : Kind → String
  | .number => "NUMBER"
  | .identifier => "IDENTIFIER"
  | .plus => "PLUS"
  | .minus => "MINUS"
  | .star => "STAR"
  | .slash => "SLASH"
  | .caret => "CARET"
  | .equal => "EQUAL"
  | .bracketOpen => "BRACKET_OPEN"
  | .bracketClose => "BRACKET_CLOSE"
  | .lineEnd => "END"

structure Token where
  kind : Kind
  lexeme : String
  deriving DecidableEq, Repr

namespace Token

def lineEnd : Token := ⟨.lineEnd, ""⟩

def describe (token : Token) : String :=
  "<" ++ token.kind.name ++ ">" ++ token.lexeme

end Token
end Reckoner

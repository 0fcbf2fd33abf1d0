import Reckoner.Evaluation

/- Answers: what a line is told. -/
namespace Reckoner

inductive Answer
  | result (result : Result)
  | error (message : String) (details : Option String)
  deriving DecidableEq, Repr

namespace Answer

def isError : Answer → Bool
  | result _ => false
  | error .. => true

def text : Answer → String
  | result ⟨none, value⟩ => Number.text value
  | result ⟨some name, value⟩ => name ++ " = " ++ Number.text value
  | error message _ => "ERROR: " ++ message

def details : Answer → Option String
  | result _ => none
  | error _ details => details.filter (· ≠ "")

end Answer
end Reckoner

import Reckoner.Answer
import Reckoner.Record
import Reckoner.Token.Scan
import Reckoner.Tree.OfTokens

/- Sessions: lines evaluated one after the other in one environment. Every line has an answer, and
   only a line that names its result changes the environment. -/
namespace Reckoner

inductive Refusal
  | unexpected (fault : Unexpected)
  | rejected (tokens : List Token) (cause : Cause) (index : Nat)
  | tooDeep (tokens : List Token)
  deriving DecidableEq, Repr

namespace Refusal

def details (refusal : Refusal) (line : String) : String :=
  match refusal with
  | unexpected fault => fault.message line
  | rejected tokens cause index => cause.message tokens index
  | tooDeep _ => "expression is nested too deeply"

def answer (refusal : Refusal) (line : String) : Answer :=
  .error "invalid expression" (some (refusal.details line))

def records (refusal : Refusal) (line : String) : List Record :=
  match refusal with
  | unexpected _ => [.syntaxError line (refusal.details line)]
  | rejected tokens .. => [.scanned tokens, .syntaxError line (refusal.details line)]
  | tooDeep tokens => [.scanned tokens, .nestedTooDeeply line]

end Refusal

structure Reading where
  tokens : List Token
  tree : Tree
  deriving DecidableEq, Repr

def Reading.ofLine (line : String) : Except Refusal Reading :=
  match Token.ofLine line with
  | .error fault => .error (.unexpected fault)
  | .ok tokens =>
    match Tree.ofTokens tokens with
    | .error (.rejected cause rest) =>
      .error (.rejected tokens cause (Failure.index tokens rest))
    | .error .tooDeep => .error (.tooDeep tokens)
    | .ok tree => .ok ⟨tokens, tree⟩

structure Step where
  answer : Answer
  environment : Environment
  records : List Record

namespace Environment

def stepTree (env : Environment) (line : String) (tree : Tree) : Step :=
  match env.execute tree with
  | .error fault => ⟨.error fault.message none, env, [.failed line fault]⟩
  | .ok (result, changed) =>
    let records :=
      match result.name with
      | none => []
      | some name => [.assigned name result.value]
    ⟨.result result, changed, records⟩

def step (env : Environment) (line : String) : Step :=
  match Reading.ofLine line with
  | .error refusal => ⟨refusal.answer line, env, refusal.records line⟩
  | .ok ⟨tokens, tree⟩ =>
    let step := env.stepTree line tree
    { step with records := .scanned tokens :: .parsed tree tokens.length :: step.records }

def steps (env : Environment) : List String → List Step
  | [] => []
  | line :: lines =>
    let step := env.step line
    step :: steps step.environment lines

end Environment
end Reckoner

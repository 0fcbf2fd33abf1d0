import Reckoner.Environment
import Reckoner.Token

/- Records: what the log says about each line. All of them are for debugging. -/
namespace Reckoner

inductive Record
  | scanned (tokens : List Token)
  | parsed (tree : Tree) (count : Nat)
  | syntaxError (line diagnostic : String)
  | nestedTooDeeply (line : String)
  | failed (line : String) (fault : Fault)
  | assigned (name : String) (value : Float)
  | finished (bindings : Table Float)

namespace Record

def level : String := "DEBUG"

def source : Record → String
  | finished _ => "calculator.repl"
  | _ => "calculator.session"

def variablesText (bindings : Table Float) : String :=
  let items := bindings.entries.map fun entry =>
    Text.quoted entry.1 ++ ": " ++ Number.text entry.2
  "\x7b" ++ String.intercalate ", " items ++ "\x7d"

def message : Record → String
  | scanned tokens => "tokens: " ++ String.intercalate " " (tokens.map Token.describe)
  | parsed tree count => "parsed " ++ tree.form ++ " from " ++ toString count ++ " tokens"
  | syntaxError line diagnostic => "syntax error in " ++ Text.quoted line ++ ":\n" ++ diagnostic
  | nestedTooDeeply line => "parsing " ++ Text.quoted line ++ " exceeded the recursion limit"
  | failed line .tooDeep => "evaluating " ++ Text.quoted line ++ " exceeded the recursion limit"
  | failed line fault => "evaluation of " ++ Text.quoted line ++ " failed: " ++ fault.message
  | assigned name value => "variable " ++ name ++ " set to " ++ Number.text value
  | finished bindings => "session variables: " ++ variablesText bindings

def line (record : Record) : String :=
  let column := String.ofList (level.toList.rightpad 8 ' ')
  column ++ " - " ++ record.source ++ " - " ++ record.message ++ "\n"

end Record
end Reckoner

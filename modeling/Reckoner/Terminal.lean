import Reckoner.Console
import Reckoner.Log

/- Terminals: the console run again and again on the same input, screen and files. Every run starts
   a session of its own. A wrong call, a call for help and a log file that does not open end a run
   before it has a session, and then it leaves the input as it is. -/
namespace Reckoner

/-- What runs depend on besides their arguments and their input: how options are read, and which
files can be opened for a log. -/
structure Host where
  joining : Joining
  opens : String → Bool

def Host.usual : Host := ⟨.lenient, fun name => name ≠ ""⟩

/-- A run ends with a status, or before its session if its log file does not open. -/
inductive Exit
  | returned (status : Nat)
  | unopened (logfile : String)
  deriving DecidableEq, Repr

def Exit.status? : Exit → Option Nat
  | returned status => some status
  | unopened _ => none

structure Terminal extends Log where
  host : Host
  input : List String
  ending : Console.InputEnd
  exits : List Exit
  output : String

namespace Terminal

def start (input : List String) (ending : Console.InputEnd) (host : Host := .usual) : Terminal :=
  { Log.empty with host, input, ending, exits := [], output := "" }

def statuses (terminal : Terminal) : List Nat :=
  terminal.exits.filterMap Exit.status?

def run (terminal : Terminal) (arguments : List String) : Terminal :=
  match Request.ofArguments arguments terminal.host.joining with
  | .misuse => { terminal with exits := terminal.exits ++ [.returned 2] }
  | .help =>
    { terminal with
      exits := terminal.exits ++ [.returned 0]
      output := terminal.output ++ Console.help }
  | .run options =>
    match terminal.toLog.setUp terminal.host.opens options with
    | (log, some name) =>
      { terminal with
        toLog := log
        exits := terminal.exits ++ [.unopened name] }
    | (log, none) =>
      let run := Console.run options terminal.ending terminal.input
      { terminal with
        toLog := run.records.foldl Log.emit log
        input := run.unread
        exits := terminal.exits ++ [.returned run.status]
        output := terminal.output ++ run.output }

def runs (terminal : Terminal) (commands : List (List String)) : Terminal :=
  commands.foldl run terminal

/-- The lines of some text after `held`, which is the part of a line read so far, last character
first. A line break ends a line, and nothing else does. -/
def linesAfter (held : List Char) : List Char → List String
  | [] => if held = [] then [] else [String.ofList held.reverse]
  | c :: cs =>
    if c = '\n' then String.ofList held.reverse :: linesAfter [] cs else linesAfter (c :: held) cs

def lines (text : String) : List String :=
  linesAfter [] text.toList

end Terminal
end Reckoner

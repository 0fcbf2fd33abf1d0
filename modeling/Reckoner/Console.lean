import Reckoner.Arguments.Request
import Reckoner.Session

/- The console: a session over the expressions of a command line or over lines typed at a prompt. -/
namespace Reckoner

namespace Console

def manual : String :=
  "
This is an interactive calculator.

MANUAL

Enter an arithmetic expression and get the result immediately.
Allowed operators: unary '-', '+' and binary '-', '+', '*', '/', '^'.

You could use constants 'pi' and 'e'.

There are predefined functions - 'sin', 'cos', 'tg', 'ctg'.
For example,

> sin(0)
0.0

Also you could assign the result to a variable and use it in any later expressions.
For example,

> x = 2 * 5
x = 10.0

> x * 2
20.0

To see this manual again enter \"help\"

To terminate enter \"quit\"
"

def usage : String :=
  "usage: calculator [-h] [-q] [-d] [-L FILE] [-v] [expressions ...]\n"

def help : String :=
  usage ++ "
Interactive arithmetic calculator

positional arguments:
  expressions           evaluate these expressions in one session and exit
                        instead of starting the prompt

options:
  -h, --help            show this help message and exit
  -q, --quiet           do not print the manual on start
  -d, --debug           enable debug logging
  -L FILE, --logfile FILE
                        also write logs to FILE
  -v, --verbose-errors  print parser diagnostics under syntax errors
"

def promptText : String := "> "

def printed (verbose : Bool) (answer : Answer) : String :=
  let details := if verbose then answer.details else none
  answer.text ++ "\n" ++ (details.elim "" (· ++ "\n"))

inductive InputEnd
  | closed
  | interrupted
  deriving DecidableEq, Repr

structure Run where
  output : String
  records : List Record
  environment : Environment
  succeeded : Bool
  unread : List String

namespace Run

def after (output : String) (records : List Record) (later : Run) : Run :=
  { later with
    output := output ++ later.output
    records := records ++ later.records }

def status (run : Run) : Nat :=
  if run.succeeded then 0 else 1

end Run

inductive Reaction
  | quit
  | print (output : String)
  | step (step : Step)

def react (env : Environment) (line : String) : Reaction :=
  let command := Text.trim line
  if command = "quit" then .quit
  else if command = "help" then .print (manual ++ "\n")
  else if command = "" then .print ""
  else .step (env.step line)

def prompt (verbose : Bool) (ending : InputEnd) (env : Environment) : List String → Run
  | [] =>
    match ending with
    | .closed | .interrupted => ⟨promptText ++ "\n", [], env, true, []⟩
  | line :: lines =>
    match react env line with
    | .quit => ⟨promptText, [], env, true, lines⟩
    | .print output => .after (promptText ++ output) [] (prompt verbose ending env lines)
    | .step step =>
      .after (promptText ++ printed verbose step.answer ++ "\n") step.records
        (prompt verbose ending step.environment lines)

def expressions (verbose : Bool) (env : Environment) (unread : List String) : List String → Run
  | [] => ⟨"", [], env, true, unread⟩
  | line :: lines =>
    let step := env.step line
    let later := expressions verbose step.environment unread lines
    .after (printed verbose step.answer) step.records
      { later with succeeded := !step.answer.isError && later.succeeded }

def run (options : Options) (ending : InputEnd) (input : List String) : Run :=
  let run : Run :=
    match options.expressions with
    | [] =>
      .after (if options.quiet then "" else manual ++ "\n") []
        (prompt options.verbose ending .builtin input)
    | lines => expressions options.verbose .builtin input lines
  { run with records := run.records ++ [.finished run.environment.bindings] }

end Console

end Reckoner

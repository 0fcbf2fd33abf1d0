import Reckoner.Terminal

/- The command line: input is read and output written line by line as the console says. -/
namespace Reckoner

def openLog (options : Options) : IO Logger := do
  let logger := Logger.initial.setUp options.screenSeverity
  match options.logfile with
  | none => return logger
  | some name =>
    discard (IO.FS.Handle.mk name .append)
    return logger.addFile name

def writeRecords (logger : Logger) (records : List Record) : IO Unit := do
  for record in records do
    for handler in logger.takers record do
      match handler.destination with
      | .screen => IO.eprint record.line
      | .file name =>
        let file ← IO.FS.Handle.mk name .append
        file.putStr record.line

partial def converse (options : Options) (logger : Logger) (env : Environment) :
    IO Environment := do
  IO.print Console.promptText
  (← IO.getStdout).flush
  let text ← (← IO.getStdin).getLine
  match Terminal.lines text with
  | [] =>
    IO.print "\n"
    return env
  | line :: _ =>
    match Console.react env line with
    | .quit => return env
    | .print output =>
      IO.print output
      converse options logger env
    | .step step =>
      IO.print (Console.printed options.verbose step.answer ++ "\n")
      writeRecords logger step.records
      converse options logger step.environment

end Reckoner

open Reckoner in
def main (arguments : List String) : IO UInt32 := do
  match Request.ofArguments arguments with
  | .misuse =>
    IO.eprint Console.usage
    return 2
  | .help =>
    IO.print Console.help
    return 0
  | .run options =>
    let logger ← openLog options
    match options.expressions with
    | [] =>
      IO.print (if options.quiet then "" else Console.manual ++ "\n")
      let env ← converse options logger .builtin
      writeRecords logger [.finished env.bindings]
      return 0
    | _ =>
      let run := Console.run options .closed []
      IO.print run.output
      writeRecords logger run.records
      return run.status.toUInt32

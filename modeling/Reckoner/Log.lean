import Reckoner.Arguments.Request
import Reckoner.Record
import Reckoner.Table

/- The log: which records go to the screen and which to a file. Handlers stay attached after the run
   that has attached them, until another run sets the logger up anew. Files are only added to, and
   hold what earlier runs have written. -/
namespace Reckoner

inductive Severity
  | debug
  | warning
  deriving DecidableEq, Repr

def Severity.rank : Severity → Nat
  | debug => 10
  | warning => 30

def Record.severity (_ : Record) : Severity := .debug

def Options.screenSeverity (options : Options) : Severity :=
  if options.debug then .debug else .warning

inductive Destination
  | screen
  | file (name : String)
  deriving DecidableEq, Repr

structure Handler where
  destination : Destination
  severity : Severity
  deriving DecidableEq, Repr

structure Logger where
  severity : Severity
  handlers : List Handler
  deriving DecidableEq, Repr

namespace Logger

def initial : Logger := ⟨.warning, []⟩

def path : String := "calculator"

def covers (source : String) : Bool :=
  source = path || (path ++ ".").toList.isPrefixOf source.toList

def detached (logger : Logger) : List Handler :=
  logger.handlers.foldl List.erase logger.handlers

def setUp (logger : Logger) (onScreen : Severity) : Logger where
  severity := .debug
  handlers := logger.detached ++ [⟨.screen, onScreen⟩]

def addFile (logger : Logger) (name : String) : Logger :=
  { logger with handlers := logger.handlers ++ [⟨.file name, .debug⟩] }

def takers (logger : Logger) (record : Record) : List Handler :=
  if covers record.source && logger.severity.rank ≤ record.severity.rank then
    logger.handlers.filter fun handler => handler.severity.rank ≤ record.severity.rank
  else []

end Logger

structure Log extends Logger where
  screen : List Record
  files : Table (List Record)

namespace Log

def empty : Log := ⟨.initial, [], .empty⟩

def file (log : Log) (name : String) : List Record :=
  (log.files.get? name).getD []

def setUpScreen (log : Log) (onScreen : Severity) : Log :=
  { log with toLogger := log.toLogger.setUp onScreen }

def openFile (log : Log) (name : String) : Log :=
  { log with
    toLogger := log.toLogger.addFile name
    files := log.files.insert name (log.file name) }

/-- Sets the logger up for a run. If its file does not open, the screen is all that is set up, and
the name of the file is told. -/
def setUp (log : Log) (opens : String → Bool) (options : Options) : Log × Option String :=
  let shown := log.setUpScreen options.screenSeverity
  match options.logfile with
  | none => (shown, none)
  | some name => if opens name then (shown.openFile name, none) else (shown, some name)

def write (record : Record) (log : Log) (handler : Handler) : Log :=
  match handler.destination with
  | .screen => { log with screen := log.screen ++ [record] }
  | .file name => { log with files := log.files.insert name (log.file name ++ [record]) }

def emit (log : Log) (record : Record) : Log :=
  (log.takers record).foldl (write record) log

end Log
end Reckoner

import Reckoner.Proofs.Console

/- Where the records of many runs end up. After each setting up the logger has a handler for the
   screen and at most one for a file, whatever was attached before; so each record is written once
   to each place that its own run has asked for, and to no other. -/
namespace Reckoner

def Options.asks (options : Options) : Destination → Bool
  | .screen => options.debug
  | .file name => options.logfile = some name

def Options.opened (options : Options) (opens : String → Bool) : Options :=
  { options with logfile := options.logfile.filter opens }

namespace Logger

def ofOptions (options : Options) : Logger where
  severity := .debug
  handlers := ⟨.screen, options.screenSeverity⟩ ::
    (options.logfile.map fun name => ⟨.file name, .debug⟩).toList

theorem detached_eq_nil (logger : Logger) : logger.detached = [] := by
  unfold detached
  induction logger.handlers with
  | nil => rfl
  | cons handler handlers ih => rw [List.foldl_cons, List.erase_cons_head, ih]

theorem setUp_eq (logger : Logger) (onScreen : Severity) :
    logger.setUp onScreen = ⟨.debug, [⟨.screen, onScreen⟩]⟩ := by
  rw [setUp, detached_eq_nil, List.nil_append]

theorem covers_source (record : Record) : covers record.source = true := by
  have session : covers "calculator.session" = true := by decide
  have prompt : covers "calculator.repl" = true := by decide
  cases record with
  | finished bindings => exact prompt
  | _ => exact session

theorem takers_ofOptions (options : Options) (record : Record) :
    (ofOptions options).takers record =
      (if options.debug then [⟨.screen, .debug⟩] else []) ++
        (options.logfile.map fun name => ⟨.file name, .debug⟩).toList := by
  rw [takers, covers_source]
  cases debug : options.debug <;> cases logfile : options.logfile <;>
    simp [ofOptions, Options.screenSeverity, Record.severity, Severity.rank, debug, logfile]

/-- No place has two handlers, so none is told a record twice. -/
theorem takers_count (options : Options) (record : Record) (place : Destination) :
    ((ofOptions options).takers record).countP (·.destination = place) =
      if options.asks place then 1 else 0 := by
  rw [takers_ofOptions]
  cases place with
  | screen =>
    cases debug : options.debug <;> cases options.logfile <;> simp [Options.asks, debug]
  | file name =>
    cases options.debug <;> cases logfile : options.logfile <;>
      simp [Options.asks, logfile, List.countP_singleton]

end Logger

namespace Log

def written (log : Log) : Destination → List Record
  | .screen => log.screen
  | .file name => log.file name

section Places

variable (log : Log) (place : Destination)

theorem file_insert (logger : Logger) (name x : String) (records : List Record) :
    file { log with toLogger := logger, files := log.files.insert name records } x =
      if x = name then records else log.file x := by
  simp only [file, Table.get_insert]
  split <;> rfl

theorem written_write (record : Record) (handler : Handler) :
    (write record log handler).written place =
      log.written place ++ if handler.destination = place then [record] else [] := by
  cases target : handler.destination with
  | screen => cases place <;> simp [write, target, written, file]
  | file name =>
    cases place with
    | screen => simp [write, target, written]
    | file x =>
      simp only [write, target, written, file_insert, Destination.file.injEq]
      by_cases same : x = name
      · subst same
        simp
      · simp [same, Ne.symm same]

theorem write_logger (record : Record) (handler : Handler) :
    (write record log handler).toLogger = log.toLogger := by
  unfold write
  split <;> rfl

theorem written_emit (record : Record) :
    (log.emit record).written place = log.written place ++
      List.replicate ((log.takers record).countP (·.destination = place)) record := by
  unfold emit
  -- the handlers are those that stood there before the record, whatever is written on the way
  induction log.takers record generalizing log with
  | nil => simp
  | cons handler handlers ih =>
    rw [List.foldl_cons, ih, written_write, List.append_assoc, List.countP_cons]
    by_cases here : handler.destination = place <;> simp [here, List.replicate_succ]

theorem emit_logger (record : Record) : (log.emit record).toLogger = log.toLogger := by
  unfold emit
  induction log.takers record generalizing log with
  | nil => rfl
  | cons handler handlers ih => rw [List.foldl_cons, ih, write_logger]

def attached (options : Options) : Log :=
  let shown := log.setUpScreen options.screenSeverity
  options.logfile.elim shown shown.openFile

theorem setUp_attaches (opens : String → Bool) (options : Options) :
    (log.setUp opens options).1 = log.attached (options.opened opens) := by
  unfold setUp attached Options.opened
  cases options.logfile with
  | none => rfl
  | some name =>
    cases opened : opens name <;> simp [opened, Option.filter, Options.screenSeverity]

theorem attached_logger (options : Options) :
    (log.attached options).toLogger = Logger.ofOptions options := by
  unfold attached Logger.ofOptions setUpScreen
  rw [Logger.setUp_eq]
  cases options.logfile <;> rfl

theorem written_openFile (name : String) :
    (log.openFile name).written place = log.written place := by
  cases place with
  | screen => rfl
  | file x =>
    rw [openFile, written, file_insert]
    split
    · rename_i same
      rw [same]
      rfl
    · rfl

theorem written_attached (options : Options) :
    (log.attached options).written place = log.written place := by
  unfold attached
  cases options.logfile with
  | none => cases place <;> rfl
  | some name =>
    rw [Option.elim_some, written_openFile]
    cases place <;> rfl

theorem emits_logger (records : List Record) :
    (records.foldl emit log).toLogger = log.toLogger := by
  induction records generalizing log with
  | nil => rfl
  | cons record records ih => rw [List.foldl_cons, ih, emit_logger]

theorem written_emits {options : Options} (logger : log.toLogger = .ofOptions options)
    (records : List Record) :
    (records.foldl emit log).written place =
      log.written place ++ if options.asks place then records else [] := by
  induction records generalizing log with
  | nil => simp
  | cons record records ih =>
    rw [List.foldl_cons, ih _ ((log.emit_logger record).trans logger), written_emit, logger,
      Logger.takers_count, List.append_assoc]
    cases options.asks place <;> rfl

end Places

end Log

structure Emission where
  options : Options
  records : List Record

def Emission.to (emission : Emission) (place : Destination) : List Record :=
  if emission.options.asks place then emission.records else []

namespace Terminal

/-- A run that only tells how to call it has nothing to log, and neither has one whose log file does
not open, but that one has set up the screen. -/
def emission? (terminal : Terminal) (arguments : List String) : Option Emission :=
  match Request.ofArguments arguments terminal.host.joining with
  | .run options =>
    some ⟨options.opened terminal.host.opens,
      if options.unopened? terminal.host.opens = none then
        (Console.run options terminal.ending terminal.input).records
      else []⟩
  | .help => none
  | .misuse => none

def emissions (terminal : Terminal) : List (List String) → List Emission
  | [] => []
  | arguments :: commands =>
    (terminal.emission? arguments).toList ++ (terminal.run arguments).emissions commands

section Run

variable (terminal : Terminal) (arguments : List String)

theorem run_log :
    (terminal.run arguments).toLog =
      (terminal.emission? arguments).elim terminal.toLog fun emission =>
        emission.records.foldl Log.emit (terminal.toLog.attached emission.options) := by
  unfold emission?
  cases request : Request.ofArguments arguments terminal.host.joining with
  | misuse => simp only [run, request, Option.elim_none]
  | help => simp only [run, request, Option.elim_none]
  | run options =>
    rw [Option.elim_some, ← Log.setUp_attaches]
    cases unopened : options.unopened? terminal.host.opens with
    | none =>
      rw [run_opened request unopened]
      rfl
    | some name =>
      rw [run_unopened request unopened]
      rfl

theorem run_logger :
    (terminal.run arguments).toLogger =
      (terminal.emission? arguments).elim terminal.toLogger (Logger.ofOptions ·.options) := by
  rw [run_log]
  cases terminal.emission? arguments with
  | none => rfl
  | some emission =>
    exact (Log.emits_logger _ emission.records).trans (Log.attached_logger _ emission.options)

theorem run_written (place : Destination) :
    (terminal.run arguments).written place = terminal.written place ++
      (terminal.emission? arguments).toList.flatMap (·.to place) := by
  rw [run_log]
  cases terminal.emission? arguments with
  | none => simp
  | some emission =>
    simp only [Option.elim_some, Option.toList_some, List.flatMap_singleton, Emission.to]
    rw [Log.written_emits _ _ (Log.attached_logger _ emission.options), Log.written_attached]

end Run

/-- Records of many runs, whatever handlers stand at the beginning. What is written to the screen or
to a file is what each run has to log that has asked for the place, once and in order, behind what
was there before. Then the logger is that of the last run that has set it up. -/
theorem records_written_once (terminal : Terminal) (commands : List (List String)) :
    let emissions := terminal.emissions commands
    let ends := terminal.runs commands
    (∀ place, ends.written place = terminal.written place ++ emissions.flatMap (·.to place)) ∧
      ends.toLogger = emissions.getLast?.elim terminal.toLogger (Logger.ofOptions ·.options) := by
  -- over any log to begin with, so that handlers of earlier runs are among those that stand there
  induction commands generalizing terminal with
  | nil => exact ⟨fun place => (List.append_nil _).symm, rfl⟩
  | cons arguments commands ih =>
    obtain ⟨written, logger⟩ := ih (terminal.run arguments)
    constructor
    · intro place
      rw [emissions, List.flatMap_append, ← List.append_assoc, ← run_written]
      exact written place
    · refine logger.trans ?_
      rw [emissions, run_logger, List.getLast?_append]
      cases ((terminal.run arguments).emissions commands).getLast? <;>
        cases terminal.emission? arguments <;> rfl

/-- A run on the screen, one to a file, one to both, a wrong call and a file without a name. -/
example :
    let ends := (start [] .closed).runs
      [["-d", "+"], ["-L", "log", "2"], ["-dL", "log", "+"], ["-z"], ["-d", "--logfile=", "1"]]
    (ends.written .screen).length = 6 ∧ (ends.written (.file "log")).length = 6 := by
  decide +kernel

end Terminal
end Reckoner

import Reckoner.Proofs.History
import Reckoner.Terminal

/- Expressions of a command line and the same lines typed at a prompt: both are told what the
   session answers, in the same order, and leave the same variables. A line that fails stops
   neither. -/
namespace Reckoner

/-- What an answer is told with: its text, and below it the details of an error if they are wanted
and there are any. -/
def Answer.block (verbose : Bool) (answer : Answer) : String :=
  answer.text ++ "\n" ++
    match answer with
    | .error _ (some details) => if verbose && details ≠ "" then details ++ "\n" else ""
    | _ => ""

namespace Terminal

def typed (lines : List String) : String :=
  String.join (lines.map (· ++ "\n"))

theorem lines_after_break {cs : List Char} (unbroken : '\n' ∉ cs) (held rest : List Char) :
    linesAfter held (cs ++ '\n' :: rest) =
      String.ofList (held.reverse ++ cs) :: linesAfter [] rest := by
  induction cs generalizing held with
  | nil => simp [linesAfter]
  | cons c cs ih =>
    simp only [List.mem_cons, not_or] at unbroken
    have differs : c ≠ '\n' := fun same => unbroken.1 same.symm
    rw [List.cons_append, linesAfter, if_neg differs, ih unbroken.2, List.reverse_cons,
      List.append_assoc, List.singleton_append]

theorem lines_typed {lines : List String} (unbroken : ∀ line ∈ lines, '\n' ∉ line.toList) :
    Terminal.lines (typed lines) = lines := by
  induction lines with
  | nil => rfl
  | cons line lines ih =>
    obtain ⟨first, others⟩ := List.forall_mem_cons.mp unbroken
    have text : (typed (line :: lines)).toList = line.toList ++ '\n' :: (typed lines).toList := by
      simp [typed]
    rw [Terminal.lines, text, lines_after_break first, ← Terminal.lines, ih others]
    simp

end Terminal

namespace Console

theorem printed_eq_block (verbose : Bool) (answer : Answer) :
    printed verbose answer = answer.block verbose := by
  cases answer with
  | result result => cases verbose <;> rfl
  | error message details =>
    cases details with
    | none => cases verbose <;> rfl
    | some details =>
      cases verbose with
      | false => rfl
      | true =>
        by_cases empty : details = "" <;>
          simp [printed, Answer.block, Answer.details, Option.filter, empty]

structure IsEvaluated (line : String) : Prop where
  notBlank : Text.trim line ≠ ""
  notQuit : Text.trim line ≠ "quit"
  notHelp : Text.trim line ≠ "help"

instance (line : String) : Decidable (IsEvaluated line) :=
  decidable_of_iff
    (Text.trim line ≠ "" ∧ Text.trim line ≠ "quit" ∧ Text.trim line ≠ "help")
    ⟨fun ⟨blank, quit, help⟩ => ⟨blank, quit, help⟩,
      fun ⟨blank, quit, help⟩ => ⟨blank, quit, help⟩⟩

theorem react_evaluated (env : Environment) {line : String} (evaluated : IsEvaluated line) :
    react env line = .step (env.step line) := by
  simp only [react, if_neg evaluated.notQuit, if_neg evaluated.notHelp, if_neg evaluated.notBlank]

section Runs

variable (verbose : Bool) (env : Environment)

theorem expressions_output (unread lines : List String) :
    (expressions verbose env unread lines).output =
      String.join ((env.steps lines).map (·.answer.block verbose)) := by
  induction lines generalizing env with
  | nil => rfl
  | cons line lines ih =>
    simp only [expressions, Run.after, ih, printed_eq_block, Environment.steps, List.map_cons,
      String.join_cons]

theorem expressions_succeeded (unread lines : List String) :
    (expressions verbose env unread lines).succeeded =
      !(env.steps lines).any (·.answer.isError) := by
  induction lines generalizing env with
  | nil => rfl
  | cons line lines ih =>
    simp only [expressions, Run.after, ih, Environment.steps, List.any_cons, Bool.not_or]

theorem expressions_environment (unread lines : List String) :
    (expressions verbose env unread lines).environment = env.left (env.steps lines) := by
  induction lines generalizing env with
  | nil => rfl
  | cons line lines ih =>
    simp only [expressions, Run.after, ih, Environment.steps, Environment.left_cons]

variable (ending : InputEnd)

theorem prompt_succeeded (lines : List String) :
    (prompt verbose ending env lines).succeeded = true := by
  induction lines generalizing env with
  | nil => cases ending <;> rfl
  | cons line lines ih =>
    rw [prompt]
    cases react env line with
    | quit => rfl
    | print output => exact ih env
    | step step => exact ih step.environment

variable {lines : List String} (evaluated : ∀ line ∈ lines, IsEvaluated line)
include evaluated

theorem prompt_output :
    (prompt verbose ending env lines).output =
      String.join ((env.steps lines).map fun step =>
        promptText ++ step.answer.block verbose ++ "\n") ++ promptText ++ "\n" := by
  induction lines generalizing env with
  | nil => cases ending <;> rfl
  | cons line lines ih =>
    obtain ⟨first, others⟩ := List.forall_mem_cons.mp evaluated
    simp only [prompt, react_evaluated env first, Run.after, ih _ others, printed_eq_block,
      Environment.steps, List.map_cons, String.join_cons, String.append_assoc]

theorem prompt_environment :
    (prompt verbose ending env lines).environment = env.left (env.steps lines) := by
  induction lines generalizing env with
  | nil => cases ending <;> rfl
  | cons line lines ih =>
    obtain ⟨first, others⟩ := List.forall_mem_cons.mp evaluated
    simp only [prompt, react_evaluated env first, Run.after, ih _ others, Environment.steps,
      Environment.left_cons]

end Runs

end Console

namespace Request

variable (joining : Joining)

theorem ofWords_operands (progress : Progress) (among : progress.place = .among)
    (clear : progress.stray = false) (texts : List String) :
    ofWords joining progress (texts.map .operand) =
      .run { progress.options with expressions := progress.options.expressions ++ texts } := by
  induction texts generalizing progress with
  | nil => simp [ofWords, clear]
  | cons text texts ih =>
    have notAfter : progress.place ≠ .after := by
      rw [among]
      decide
    have added := ih (progress.addOperands [text])
    simp only [Progress.addOperands, if_neg notAfter, List.append_assoc,
      List.singleton_append] at added
    rw [List.map_cons, ofWords, Progress.addOperands, if_neg notAfter]
    exact added trivial clear

def verboseFlag (verbose : Bool) : List String :=
  if verbose then ["-v"] else []

theorem of_expressions (verbose : Bool) (lines : List String) :
    ofArguments (verboseFlag verbose ++ "--" :: lines) joining =
      .run { Options.initial with expressions := lines, verbose := verbose } := by
  have words : Word.ofTexts? ("--" :: lines) = some (.separator :: lines.map .operand) := rfl
  cases verbose with
  | false =>
    simp only [verboseFlag, Bool.false_eq_true, if_false, List.nil_append, ofArguments, words]
    rw [ofWords, ofWords_operands joining _ rfl rfl]
    rfl
  | true =>
    have option : Word.ofText? "-v" = some (.option .verbose false none) := by decide
    have flag : Word.ofTexts? ("-v" :: "--" :: lines) =
        some (.option .verbose false none :: .separator :: lines.map .operand) := by
      rw [Word.ofTexts?, if_neg (by decide), option, words]
      rfl
    simp only [verboseFlag, if_true, List.singleton_append, ofArguments, flag]
    exact ofWords_operands joining _ rfl rfl lines

theorem of_prompt (verbose : Bool) :
    ofArguments ("-q" :: verboseFlag verbose) joining =
      .run { Options.initial with quiet := true, verbose := verbose } := by
  cases verbose <;> cases joining <;> decide

end Request

namespace Console

theorem run_expressions {options : Options} (some : options.expressions ≠ []) (ending : InputEnd)
    (input : List String) :
    let session := expressions options.verbose .builtin input options.expressions
    run options ending input =
      { session with records := session.records ++ [.finished session.environment.bindings] } := by
  obtain ⟨texts, quiet, debug, verbose, logfile⟩ := options
  cases texts with
  | nil => contradiction
  | cons text texts => rfl

theorem run_prompt {options : Options} (none : options.expressions = []) (ending : InputEnd)
    (input : List String) :
    let session := Run.after (if options.quiet then "" else manual ++ "\n") []
      (prompt options.verbose ending .builtin input)
    run options ending input =
      { session with records := session.records ++ [.finished session.environment.bindings] } := by
  obtain ⟨texts, quiet, debug, verbose, logfile⟩ := options
  obtain rfl : texts = [] := none
  rfl

end Console

def Options.unopened? (options : Options) (opens : String → Bool) : Option String :=
  options.logfile.filter fun name => !opens name

theorem Log.setUp_unopened (log : Log) (opens : String → Bool) (options : Options) :
    (log.setUp opens options).2 = options.unopened? opens := by
  unfold setUp Options.unopened?
  cases options.logfile with
  | none => rfl
  | some name => cases opened : opens name <;> simp [opened, Option.filter]

namespace Terminal

def session? (terminal : Terminal) (arguments : List String) : Option Environment :=
  match Request.ofArguments arguments terminal.host.joining with
  | .run options =>
    if options.unopened? terminal.host.opens = none then
      some (Console.run options terminal.ending terminal.input).environment
    else none
  | _ => none

section Exits

variable {terminal : Terminal} {arguments : List String} {options : Options}
  (request : Request.ofArguments arguments terminal.host.joining = .run options)
include request

theorem run_unopened {name : String}
    (unopened : options.unopened? terminal.host.opens = some name) :
    terminal.run arguments =
      { terminal with
        toLog := (terminal.toLog.setUp terminal.host.opens options).1
        exits := terminal.exits ++ [.unopened name] } := by
  have told := terminal.toLog.setUp_unopened terminal.host.opens options
  rw [unopened] at told
  simp only [run, request]
  generalize terminal.toLog.setUp terminal.host.opens options = setUp at told ⊢
  obtain ⟨log, file⟩ := setUp
  obtain rfl : file = some name := told
  rfl

theorem run_opened (opened : options.unopened? terminal.host.opens = none) :
    let run := Console.run options terminal.ending terminal.input
    terminal.run arguments =
      { terminal with
        toLog := run.records.foldl Log.emit (terminal.toLog.setUp terminal.host.opens options).1
        input := run.unread
        exits := terminal.exits ++ [.returned run.status]
        output := terminal.output ++ run.output } := by
  have told := terminal.toLog.setUp_unopened terminal.host.opens options
  rw [opened] at told
  simp only [run, request]
  generalize terminal.toLog.setUp terminal.host.opens options = setUp at told ⊢
  obtain ⟨log, file⟩ := setUp
  obtain rfl : file = none := told
  rfl

theorem session_opened (opened : options.unopened? terminal.host.opens = none) :
    terminal.session? arguments =
      some (Console.run options terminal.ending terminal.input).environment := by
  simp only [session?, request, opened, if_true]

end Exits

/-- The same lines as expressions of the command line and typed at a quiet prompt. Both times every
line is answered as the session answers it, failed lines before it or not. The prompt stands before
every block and before the end of the input, and an empty line after every block. Only the status of
the expressions tells whether a line has failed, and both end with the variables of the session. -/
theorem prompt_agrees_with_expressions (host : Host) (verbose : Bool) (ending : Console.InputEnd)
    (unread : List String) {lines : List String} (nonempty : lines ≠ [])
    (evaluated : ∀ line ∈ lines, '\n' ∉ line.toList ∧ Console.IsEvaluated line) :
    let steps := Environment.builtin.steps lines
    let block := fun step : Step => step.answer.block verbose
    let flag := Request.verboseFlag verbose
    let given := start unread ending host
    let asked := start (Terminal.lines (typed lines)) ending host
    (given.run (flag ++ "--" :: lines)).output = String.join (steps.map block) ∧
      (given.run (flag ++ "--" :: lines)).exits =
        [.returned (if steps.any (·.answer.isError) then 1 else 0)] ∧
      given.session? (flag ++ "--" :: lines) = some (Environment.builtin.left steps) ∧
      (asked.run ("-q" :: flag)).output =
        String.join (steps.map fun step => "> " ++ block step ++ "\n") ++ "> " ++ "\n" ∧
      (asked.run ("-q" :: flag)).exits = [.returned 0] ∧
      asked.session? ("-q" :: flag) = some (Environment.builtin.left steps) := by
  intro steps block flag given asked
  have typedLines : Terminal.lines (typed lines) = lines :=
    lines_typed fun line member => (evaluated line member).1
  have plain : ∀ line ∈ lines, Console.IsEvaluated line := fun line member =>
    (evaluated line member).2
  have given_request := Request.of_expressions given.host.joining verbose lines
  have asked_request := Request.of_prompt asked.host.joining verbose
  rw [run_opened given_request rfl, session_opened given_request rfl, run_opened asked_request rfl,
    session_opened asked_request rfl, Console.run_expressions nonempty, Console.run_prompt rfl]
  simp only [given, asked, start, typedLines, Console.Run.after, Console.Run.status,
    Console.expressions_output, Console.expressions_succeeded, Console.expressions_environment,
    Console.prompt_output verbose .builtin ending plain, Console.prompt_succeeded,
    Console.prompt_environment verbose .builtin ending plain]
  refine ⟨String.empty_append, ?_, rfl, ?_, rfl, rfl⟩
  · rw [List.nil_append]
    cases (Environment.builtin.steps lines).any (·.answer.isError) <;> rfl
  · rw [if_pos trivial, String.empty_append, String.empty_append]
    rfl

theorem failed_line_between :
    let lines := ["x = 2", " quit1", "1 +", "x * 4"]
    let text := "x = 2\n quit1\n1 +\nx * 4\n"
    lines ≠ [] ∧ (∀ line ∈ lines, '\n' ∉ line.toList ∧ Console.IsEvaluated line) ∧
      ((start [] .closed).run ("-v" :: "--" :: lines)).exits = [.returned 1] ∧
      ((start (Terminal.lines text) .interrupted).run ["-q", "-v"]).output =
        "> x = 2.0\n\n> ERROR: 'quit1' is not a valid variable name\n\n" ++
          "> ERROR: invalid expression\n" ++
          "Parser error: Unexpected end of input, operand expected\n1 +\n    ^\n\n" ++
          "> 8.0\n\n> \n" := by
  intro lines text
  have nonempty : lines ≠ [] := by decide
  have evaluated : ∀ line ∈ lines, '\n' ∉ line.toList ∧ Console.IsEvaluated line := by
    decide +kernel
  obtain ⟨-, ends, -⟩ :=
    prompt_agrees_with_expressions .usual true .closed [] nonempty evaluated
  obtain ⟨-, -, -, output, -⟩ :=
    prompt_agrees_with_expressions .usual true .interrupted [] nonempty evaluated
  have spelled : typed lines = text := by decide +kernel
  rw [spelled] at output
  exact ⟨nonempty, evaluated, ends.trans (by decide +kernel), output.trans (by decide +kernel)⟩

end Terminal
end Reckoner

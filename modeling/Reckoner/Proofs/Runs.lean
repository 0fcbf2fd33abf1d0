import Reckoner.Proofs.Console

/- Runs in one process share the input that is left and nothing else. Each of them takes its share
   of the lines, and does on its share alone what it does in its place among the others. -/
namespace Reckoner

def upToQuit : List String → List String
  | [] => []
  | line :: lines => if Text.trim line = "quit" then [line] else line :: upToQuit lines

/-- The lines that a run takes from the input: only the prompt takes any, and it is not shown if the
log file does not open. -/
def Request.share (request : Request) (opens : String → Bool) (input : List String) : List String :=
  match request with
  | .run options =>
    if options.expressions = [] ∧ options.unopened? opens = none then upToQuit input else []
  | .help => []
  | .misuse => []

namespace Console

theorem react_quit_iff (env : Environment) (line : String) :
    react env line = .quit ↔ Text.trim line = "quit" := by
  simp only [react]
  by_cases quits : Text.trim line = "quit"
  · simp [quits]
  · rw [if_neg quits]
    simp only [quits, iff_false]
    split_ifs <;> simp

section Shares

variable (verbose : Bool) (ending : InputEnd) (env : Environment)

theorem prompt_takes_share (input : List String) :
    input = upToQuit input ++ (prompt verbose ending env input).unread := by
  -- over any environment: what a line does to it has no say in which lines are read
  induction input generalizing env with
  | nil => cases ending <;> rfl
  | cons line lines ih =>
    rw [prompt, upToQuit]
    by_cases quits : Text.trim line = "quit"
    · rw [if_pos quits, (react_quit_iff env line).mpr quits]
      rfl
    · rw [if_neg quits, List.cons_append]
      congr 1
      cases reaction : react env line with
      | quit => exact absurd ((react_quit_iff env line).mp reaction) quits
      | print output => exact ih env
      | step step => exact ih step.environment

theorem prompt_on_share (input : List String) :
    prompt verbose ending env (upToQuit input) =
      { prompt verbose ending env input with unread := [] } := by
  induction input generalizing env with
  | nil => cases ending <;> rfl
  | cons line lines ih =>
    rw [upToQuit]
    by_cases quits : Text.trim line = "quit"
    · rw [if_pos quits, prompt, prompt, (react_quit_iff env line).mpr quits]
    · rw [if_neg quits, prompt, prompt]
      cases reaction : react env line with
      | quit => exact absurd ((react_quit_iff env line).mp reaction) quits
      | print output =>
        simp only [ih env]
        rfl
      | step step =>
        simp only [ih step.environment]
        rfl

theorem expressions_on_share (unread lines : List String) :
    expressions verbose env [] lines =
      { expressions verbose env unread lines with unread := [] } := by
  induction lines generalizing env with
  | nil => rfl
  | cons line lines ih =>
    simp only [expressions, ih (env.step line).environment]
    rfl

theorem expressions_unread (unread lines : List String) :
    (expressions verbose env unread lines).unread = unread := by
  induction lines generalizing env with
  | nil => rfl
  | cons line lines ih => exact ih (env.step line).environment

end Shares

variable {options : Options} {opens : String → Bool} (opened : options.unopened? opens = none)
  (ending : InputEnd) (input : List String)
include opened

theorem run_takes_share :
    input = (Request.run options).share opens input ++ (run options ending input).unread := by
  by_cases none : options.expressions = []
  · rw [run_prompt none, Request.share, if_pos ⟨none, opened⟩]
    exact prompt_takes_share options.verbose ending .builtin input
  · rw [run_expressions none, Request.share, if_neg fun both => none both.1, expressions_unread,
      List.nil_append]

theorem run_on_share :
    run options ending ((Request.run options).share opens input) =
      { run options ending input with unread := [] } := by
  by_cases none : options.expressions = []
  · simp only [run_prompt none, Request.share, if_pos (And.intro none opened), Run.after,
      prompt_on_share]
  · simp only [run_expressions none, Request.share, if_neg fun both => none (And.left both),
      expressions_on_share options.verbose .builtin input]

end Console

namespace Terminal

theorem lines_unbroken (held cs : List Char) (clear : '\n' ∉ held) :
    ∀ line ∈ linesAfter held cs, '\n' ∉ line.toList := by
  induction cs generalizing held with
  | nil =>
    rw [linesAfter]
    split
    · simp
    · simpa using clear
  | cons c cs ih =>
    rw [linesAfter]
    split
    · refine List.forall_mem_cons.mpr ⟨by simpa using clear, ih [] (by simp)⟩
    · rename_i differs
      exact ih (c :: held) (by simp [clear, Ne.symm differs])

theorem run_setting (terminal : Terminal) (arguments : List String) :
    (terminal.run arguments).host = terminal.host ∧
      (terminal.run arguments).ending = terminal.ending := by
  unfold run
  split
  · exact ⟨rfl, rfl⟩
  · exact ⟨rfl, rfl⟩
  · split <;> exact ⟨rfl, rfl⟩

/-- A run takes its share of the input from the front. How it ends and what it writes out is what it
comes to on that share alone, in a process of its own. -/
theorem run_alone (terminal : Terminal) (arguments : List String) :
    let share := (Request.ofArguments arguments terminal.host.joining).share
      terminal.host.opens terminal.input
    let alone := (start share terminal.ending terminal.host).run arguments
    terminal.input = share ++ (terminal.run arguments).input ∧ alone.input = [] ∧
      (terminal.run arguments).exits = terminal.exits ++ alone.exits ∧
      alone.exits.length = 1 ∧
      (terminal.run arguments).output = terminal.output ++ alone.output := by
  intro share alone
  cases request : Request.ofArguments arguments terminal.host.joining with
  -- without a session no line is taken, and what is said depends on the arguments alone
  | misuse => simp [share, alone, run, request, Request.share, start]
  | help => simp [share, alone, run, request, Request.share, start]
  | run options =>
    have own : share = (Request.run options).share terminal.host.opens terminal.input := by
      simp only [share, request]
    have requestAlone : Request.ofArguments arguments
        (start share terminal.ending terminal.host).host.joining = .run options := request
    cases unopened : options.unopened? terminal.host.opens with
    | some name =>
      have nothing : share = [] := by rw [own, Request.share, if_neg (by simp [unopened])]
      simp only [alone]
      rw [run_unopened request unopened, run_unopened requestAlone unopened, nothing]
      simp [start]
    | none =>
      have takes := Console.run_takes_share unopened terminal.ending terminal.input
      have onShare := Console.run_on_share unopened terminal.ending terminal.input
      rw [← own] at takes onShare
      have begun : Console.run options (start share terminal.ending terminal.host).ending
          (start share terminal.ending terminal.host).input = _ := onShare
      simp only [alone]
      rw [run_opened request unopened, run_opened requestAlone unopened, begun]
      refine ⟨takes, rfl, rfl, rfl, ?_⟩
      simp [start, Log.empty]

theorem runs_setting (terminal : Terminal) (commands : List (List String)) :
    (terminal.runs commands).host = terminal.host ∧
      (terminal.runs commands).ending = terminal.ending := by
  induction commands generalizing terminal with
  | nil => exact ⟨rfl, rfl⟩
  | cons arguments commands ih =>
    obtain ⟨host, ending⟩ := ih (terminal.run arguments)
    obtain ⟨hostNext, endingNext⟩ := terminal.run_setting arguments
    exact ⟨host.trans hostNext, ending.trans endingNext⟩

theorem runs_leave_suffix (terminal : Terminal) (commands : List (List String)) :
    (terminal.runs commands).input <:+ terminal.input := by
  induction commands generalizing terminal with
  | nil => exact List.suffix_rfl
  | cons arguments commands ih =>
    exact (ih (terminal.run arguments)).trans ⟨_, (terminal.run_alone arguments).1.symm⟩

/-- Each of any number of runs on one input and one host, whichever of their log files open. The
prompt takes the lines that are left up to the first that quits, and other runs take none, as does a
run that fails before its prompt. How the run ends and what it writes out is that of the same
command line in a process of its own, on an input of just these lines that ends in the same way. -/
theorem runs_share_only_input (host : Host) (text : String) (ending : Console.InputEnd)
    (earlier : List (List String)) (arguments : List String) :
    let begun := start (Terminal.lines text) ending host
    let before := begun.runs earlier
    let after := begun.runs (earlier ++ [arguments])
    let share := (Request.ofArguments arguments host.joining).share host.opens before.input
    let alone := (start (Terminal.lines (typed share)) ending host).run arguments
    before.input = share ++ after.input ∧ alone.input = [] ∧
      after.exits = before.exits ++ alone.exits ∧ alone.exits.length = 1 ∧
      after.output = before.output ++ alone.output := by
  intro begun before after share alone
  have next : after = before.run arguments := by
    simp only [after, before, runs, List.foldl_append, List.foldl_cons, List.foldl_nil]
  obtain ⟨sameHost, sameEnding⟩ : before.host = host ∧ before.ending = ending :=
    begun.runs_setting earlier
  have own := before.run_alone arguments
  rw [sameHost, sameEnding] at own
  obtain ⟨takes, rest⟩ := own
  have unbroken : ∀ line ∈ share, '\n' ∉ line.toList := by
    intro line member
    have left : line ∈ before.input := takes ▸ List.mem_append_left _ member
    exact lines_unbroken [] text.toList (by simp) line
      ((begun.runs_leave_suffix earlier).subset left)
  have typedShare : alone = (start share ending host).run arguments := by
    rw [← lines_typed unbroken]
  rw [next, typedShare]
  exact ⟨takes, rest⟩

/-- Runs at the prompt with two between them that take no line: one only looks at its expression,
and the log file of the other does not open. -/
example :
    let ends := (start (Terminal.lines "a = 1\nquit\na\n\n quit \na = 2") .closed).runs
      [["-q"], ["a"], ["-q", "--logfile="], ["-q"], ["-q"]]
    ends.input = [] ∧
      ends.exits = [.returned 0, .returned 1, .unopened "", .returned 0, .returned 0] ∧
      ends.statuses = [0, 1, 0, 0] := by
  decide +kernel

end Terminal
end Reckoner

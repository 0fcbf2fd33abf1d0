import Reckoner.Proofs.History
import Reckoner.Proofs.Independence
import Reckoner.Proofs.Layout
import Reckoner.Proofs.Number.ReadBack

/- The log of a session tells its variables. Every naming leaves one message, the last of its line,
   and no other message begins like it, whatever text it quotes; so the messages alone, read as
   bindings and done again, come to the variables of the session. -/
namespace Reckoner
open Token

/-- The name and the value that a message tells, if it says `variable x set to v`. -/
def Message.binding? (message : String) : Option (String × Float) :=
  ("variable ".toList.isPrefixOf? message.toList).bind fun rest =>
    (" set to ".toList.isPrefixOf? (rest.dropWhile (· ≠ ' '))).bind fun value =>
      (Number.read? (String.ofList value)).map fun v =>
        (String.ofList (rest.takeWhile (· ≠ ' ')), v)

namespace Record

def ofNaming (naming : String × Float) : Record := .assigned naming.1 naming.2

def naming? : Record → Option (String × Float)
  | assigned x value => some (x, value)
  | _ => none

theorem naming_message (naming : String × Float) :
    (ofNaming naming).message = "variable " ++ naming.1 ++ " set to " ++ Number.text naming.2 := rfl

theorem head_append {word : String} {c : Char} (first : word.toList.head? = some c)
    (text : String) : (word ++ text).toList.head? = some c := by
  rw [String.toList_append, List.head?_append, first, Option.some_or]

theorem other_first {record : Record} (other : record.naming? = none) :
    ∃ c, record.message.toList.head? = some c ∧ c ≠ 'v' := by
  -- quoted text stands behind the first word of a message only
  cases record with
  | scanned tokens => exact ⟨'t', head_append rfl _, by decide⟩
  | parsed tree count =>
    exact ⟨'p', head_append (head_append (head_append (head_append rfl _) _) _) _, by decide⟩
  | syntaxError line diagnostic =>
    exact ⟨'s', head_append (head_append (head_append rfl _) _) _, by decide⟩
  | nestedTooDeeply line => exact ⟨'p', head_append (head_append rfl _) _, by decide⟩
  | failed line fault =>
    refine ⟨'e', ?_, by decide⟩
    cases fault with
    | tooDeep => exact head_append (head_append rfl _) _
    | _ => exact head_append (head_append (head_append rfl _) _) _
  | assigned x value => simp [naming?] at other
  | finished bindings => exact ⟨'s', head_append rfl _, by decide⟩

theorem other_message {record : Record} (other : record.naming? = none) :
    ¬"variable ".toList <+: record.message.toList := by
  obtain ⟨c, first, differs⟩ := other_first other
  rintro ⟨rest, begins⟩
  rw [← begins] at first
  exact differs (Option.some.inj first).symm

theorem binding_of_other {record : Record} (other : record.naming? = none) :
    Message.binding? record.message = none := by
  have start := other_message other
  rw [Message.binding?]
  cases found : "variable ".toList.isPrefixOf? record.message.toList with
  | none => rfl
  | some rest =>
    obtain begins := List.isPrefixOf?_eq_some_iff_append_eq.mp found
    exact absurd ⟨rest, begins⟩ start

theorem binding_of_naming {x : String} (word : ∀ c ∈ x.toList, c ≠ ' ') (value : Float) :
    Message.binding? (ofNaming (x, value)).message = some (x, value) := by
  have spelled : (ofNaming (x, value)).message.toList =
      "variable ".toList ++ (x.toList ++ (" set to ".toList ++ (Number.text value).toList)) := by
    simp only [naming_message, String.toList_append, List.append_assoc]
  have front := List.isPrefixOf?_eq_some_iff_append_eq.mpr spelled.symm
  have unblank : ∀ c ∈ x.toList, decide (c ≠ ' ') = true := by simpa using word
  obtain ⟨name, middle⟩ :
      let tail := x.toList ++ (" set to ".toList ++ (Number.text value).toList)
      tail.takeWhile (· ≠ ' ') = x.toList ∧
        tail.dropWhile (· ≠ ' ') = " set to ".toList ++ (Number.text value).toList :=
    Lexeme.take_drop_of_all unblank (by simp)
  have back : " set to ".toList.isPrefixOf? (" set to ".toList ++ (Number.text value).toList) =
      some (Number.text value).toList := List.isPrefixOf?_eq_some_iff_append_eq.mpr rfl
  rw [Message.binding?, front, Option.bind_some, name, middle, back, Option.bind_some,
    String.ofList_toList, String.ofList_toList, Number.read_text, Option.map_some]

end Record

theorem bindings_of_records {records : List Record}
    (words : ∀ record ∈ records, ∀ naming ∈ record.naming?, ∀ c ∈ naming.1.toList, c ≠ ' ') :
    (records.map Record.message).filterMap Message.binding? = records.filterMap Record.naming? := by
  rw [List.filterMap_map]
  apply List.filterMap_congr
  intro record member
  cases named : record.naming? with
  | none => exact Record.binding_of_other named
  | some naming =>
    cases record with
    | assigned x value =>
      obtain rfl := Option.some.inj named
      exact Record.binding_of_naming (words _ member _ rfl) value
    | _ => simp [Record.naming?] at named

namespace Environment

theorem records_of_tree (env : Environment) (line : String) (tree : Tree) :
    ∃ earlier, (∀ record ∈ earlier, Record.naming? record = none) ∧
      (env.stepTree line tree).records =
        earlier ++ ((env.stepTree line tree).answer.naming?.map Record.ofNaming).toList := by
  unfold stepTree
  cases env.execute tree with
  | error fault => exact ⟨[.failed line fault], by simp [Record.naming?], rfl⟩
  | ok done =>
    obtain ⟨⟨name, value⟩, changed⟩ := done
    cases name with
    | none => exact ⟨[], by simp, rfl⟩
    | some x => exact ⟨[], by simp, rfl⟩

theorem records_of_step (env : Environment) (line : String) :
    ∃ earlier, (∀ record ∈ earlier, Record.naming? record = none) ∧
      (env.step line).records =
        earlier ++ ((env.step line).answer.naming?.map Record.ofNaming).toList := by
  unfold step
  cases Reading.ofLine line with
  | error refusal =>
    refine ⟨refusal.records line, ?_, by simp [Refusal.answer, Answer.naming?]⟩
    cases refusal <;> simp [Refusal.records, Record.naming?]
  | ok reading =>
    obtain ⟨earlier, others, records⟩ := env.records_of_tree line reading.tree
    refine ⟨.scanned reading.tokens :: .parsed reading.tree reading.tokens.length :: earlier,
      ?_, ?_⟩
    · simpa [Record.naming?] using others
    · simp [records]

theorem name_of_naming {env : Environment} {line x : String} {value : Float}
    (named : (env.step line).answer.naming? = some (x, value)) : ∀ c ∈ x.toList, c ≠ ' ' := by
  obtain ⟨⟨tokens, tree⟩, read, target⟩ := target_of_naming named
  obtain ⟨words, -, spread, statement, -⟩ := (reading_iff line tokens tree).mp read
  cases statement with
  | expression derives =>
    cases tree with
    | assign y inner => exact absurd rfl (Grammar.derives_not_assign derives y inner)
    | _ => simp [Tree.target?] at target
  | @assignment lexeme equal xs inner sign derives =>
    obtain rfl : lexeme = x := Option.some.inj target
    -- the name is the text of a lexeme, and all characters of lexemes are visible
    have shape := shaped_of_spread spread ⟨.identifier, lexeme⟩ (by simp)
    rintro c member rfl
    exact absurd (shape_visible shape ' ' member) (by decide)

theorem bindings_of_step (env : Environment) (line : String) :
    ((env.step line).records.map Record.message).filterMap Message.binding? =
      (env.step line).answer.naming?.toList := by
  obtain ⟨earlier, others, records⟩ := env.records_of_step line
  have none : earlier.filterMap Record.naming? = [] := List.filterMap_eq_nil_iff.mpr others
  rw [bindings_of_records, records, List.filterMap_append, none]
  · cases (env.step line).answer.naming? <;> rfl
  · intro record member naming named
    rw [records] at member
    rcases List.mem_append.mp member with before | last
    · rw [others record before] at named
      contradiction
    · obtain ⟨own, given, rfl⟩ := Option.map_eq_some_iff.mp (Option.mem_toList.mp last)
      obtain rfl : own = naming := Option.some.inj named
      exact name_of_naming given

theorem bindings_of_run (env : Environment) (lines : List String) :
    ((env.steps lines).flatMap fun step => step.records.map Record.message).filterMap
      Message.binding? = (env.steps lines).filterMap (·.answer.naming?) := by
  induction lines generalizing env with
  | nil => rfl
  | cons line lines ih =>
    rw [steps, List.flatMap_cons, List.filterMap_append, bindings_of_step, ih, List.filterMap_cons]
    cases (env.step line).answer.naming? <;> rfl

theorem left_of_namings (env : Environment) (lines : List String) :
    (env.left (env.steps lines)).bindings =
      ((env.steps lines).filterMap (·.answer.naming?)).foldl
        (fun table entry => table.insert entry.1 entry.2) env.bindings := by
  induction lines generalizing env with
  | nil => rfl
  | cons line lines ih =>
    rw [steps, left_cons, ih, List.filterMap_cons, step_noting]
    cases named : (env.step line).answer.naming? with
    | none => rw [noting_of_none env named]
    | some naming => rw [noting_of_some env named, List.foldl_cons]

theorem step_of_run {env : Environment} {lines : List String} {step : Step}
    (member : step ∈ env.steps lines) : ∃ before line, step = Environment.step before line := by
  induction lines generalizing env with
  | nil => simp [steps] at member
  | cons line lines ih =>
    rcases List.mem_cons.mp member with rfl | later
    · exact ⟨env, line, rfl⟩
    · exact ih later

/-- The messages of a session rebuild its variables. Those that say `variable x set to v`, done
again in their order, make exactly the table that the session has, names in the same order; and each
line leaves such a message last if its answer has a name, and no message that begins like it
besides. -/
theorem log_rebuilds_variables (constants : Table Float) (functions : Table Function)
    (lines : List String) :
    let start := fresh constants functions
    let run := start.steps lines
    let messages := run.flatMap fun step => step.records.map Record.message
    Table.ofList (messages.filterMap Message.binding?) = (start.left run).bindings ∧
      ∀ step ∈ run, ∃ earlier : List String,
        step.records.map Record.message = earlier ++ (step.answer.naming?.map fun naming =>
          "variable " ++ naming.1 ++ " set to " ++ Number.text naming.2).toList ∧
        ∀ message ∈ earlier, ¬"variable ".toList <+: message.toList := by
  intro start run messages
  constructor
  · rw [bindings_of_run, left_of_namings]
    rfl
  · intro step member
    obtain ⟨env, line, rfl⟩ := step_of_run member
    obtain ⟨earlier, others, records⟩ := env.records_of_step line
    refine ⟨earlier.map Record.message, ?_, ?_⟩
    · rw [records, List.map_append]
      cases (env.step line).answer.naming? <;> rfl
    · intro message told
      obtain ⟨record, before, rfl⟩ := List.mem_map.mp told
      exact Record.other_message (others record before)

/-- Quoted in another message, a line cannot pass for a naming. -/
example : ((builtin.steps ["a = 7", "variable a set to 8"]).flatMap
    fun step => step.records.map Record.message).filterMap Message.binding? = [("a", 7)] := by
  decide +kernel

end Environment
end Reckoner

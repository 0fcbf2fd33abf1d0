import Mathlib.Control.Monad.Basic
import Reckoner.Proofs.Spread

/- The rule of scanning by itself: from the left, a line is the longest lexemes that start where the
   one before has ended, with blanks between them. Lines are scanned by this rule and no other, and
   rejected at the first place where it does not go on. -/
namespace Reckoner
open Text

namespace Lexeme

/-- The text of a lexeme that starts here, where none starts that is longer. -/
structure Longest (kind : Kind) (text cs : List Char) : Prop where
  shape : Shape kind text
  starts : text <+: cs
  longest : ∀ other more, Shape other more → more <+: cs → more.length ≤ text.length

theorem whole_within_number (cs : List Char) :
    (cs.takeWhile Char.isDigit).length ≤ (number cs).text.length := by
  simp only [number]
  split
  · split <;> simp
  · exact Nat.le_refl _

theorem letters_within_identifier (cs : List Char) :
    (cs.takeWhile Char.isAlpha).length ≤ (identifier cs).text.length := by
  simp [identifier]

theorem longest_at_least {kind : Kind} {text : List Char} (shape : Shape kind text)
    (rest : List Char) :
    ∃ lexeme, longest? (text ++ rest) = some lexeme ∧ text.length ≤ lexeme.text.length := by
  cases shape with
  | whole some all =>
    have length := whole_within_number (text ++ rest)
    rw [List.takeWhile_append_of_pos all, List.length_append] at length
    refine ⟨number (text ++ rest), ?_, by omega⟩
    obtain ⟨c, cs, rfl⟩ := List.exists_cons_of_ne_nil some
    have digit : c.isDigit := all c (by simp)
    simp [longest?, digit]
  | @fraction whole digits someWhole some allWhole all =>
    have stop : ∀ c ∈ ('.' :: (digits ++ rest)).head?, ¬ c.isDigit := by simp
    obtain ⟨taken, dropped⟩ := take_drop_of_all allWhole stop
    refine ⟨number (whole ++ '.' :: (digits ++ rest)), ?_, ?_⟩
    · obtain ⟨c, cs, rfl⟩ := List.exists_cons_of_ne_nil someWhole
      have digit : c.isDigit := allWhole c (by simp)
      simp [longest?, digit]
    · obtain ⟨d, ds, rfl⟩ := List.exists_cons_of_ne_nil some
      have digit : d.isDigit := all d (by simp)
      have more : (d :: ds ++ rest).takeWhile Char.isDigit =
          d :: ds ++ rest.takeWhile Char.isDigit := List.takeWhile_append_of_pos all
      simp only [List.cons_append] at taken dropped more
      simp [number, taken, dropped, digit, more]
  | @identifier letters digits some allLetters all =>
    refine ⟨identifier (letters ++ digits ++ rest), ?_, ?_⟩
    · obtain ⟨c, cs, rfl⟩ := List.exists_cons_of_ne_nil some
      have letter : c.isAlpha := allLetters c (by simp)
      simp [longest?, letter, letter_not_digit letter]
    · cases digits with
      | nil =>
        have length := letters_within_identifier (letters ++ rest)
        rw [List.takeWhile_append_of_pos allLetters, List.length_append] at length
        simp only [List.append_nil]
        omega
      | cons d digits =>
        have stop : ∀ c ∈ (d :: digits ++ rest).head?, ¬ c.isAlpha := by
          simp [digit_not_letter (all d (by simp))]
        obtain ⟨taken, dropped⟩ := take_drop_of_all allLetters stop
        simp only [identifier, List.append_assoc, taken, dropped, List.takeWhile_append_of_pos all]
        simp only [List.length_append]
        omega
  | @symbol kind c known =>
    obtain ⟨digit, letter, _, _, sign⟩ := symbol_spec known
    exact ⟨⟨kind, [c], rest⟩, by simp [longest?, digit, letter, sign], Nat.le_refl _⟩

theorem starts_iff (cs : List Char) :
    longest? cs = none ↔ ∀ kind text, Shape kind text → ¬ text <+: cs := by
  constructor
  · rintro none kind _ shape ⟨rest, rfl⟩
    obtain ⟨lexeme, found, _⟩ := longest_at_least shape rest
    rw [none] at found
    contradiction
  · intro nowhere
    cases found : longest? cs with
    | none => rfl
    | some lexeme =>
      have starts : lexeme.text <+: cs := ⟨lexeme.rest, longest_append found⟩
      exact absurd starts (nowhere _ _ (longest_shape found).1)

theorem longest_of_found {cs : List Char} {lexeme : Lexeme} (found : longest? cs = some lexeme) :
    Longest lexeme.kind lexeme.text cs where
  shape := (longest_shape found).1
  starts := ⟨lexeme.rest, longest_append found⟩
  longest := by
    rintro other more shape ⟨rest, rfl⟩
    obtain ⟨same, again, bound⟩ := longest_at_least shape rest
    rw [found] at again
    cases again
    exact bound

theorem shape_kind_unique {kind other : Kind} {text : List Char} (first : Shape kind text)
    (second : Shape other text) : kind = other := by
  obtain ⟨c, cs, rfl, left⟩ := shape_first first
  obtain ⟨_, _, eq, right⟩ := shape_first second
  cases eq
  rcases left with ⟨rfl, digit⟩ | ⟨rfl, letter⟩ | known
  · rcases right with ⟨rfl, _⟩ | ⟨rfl, letter⟩ | otherKnown
    · rfl
    · rw [digit_not_letter digit] at letter
      contradiction
    · rw [(symbol_spec otherKnown).1] at digit
      contradiction
  · rcases right with ⟨rfl, digit⟩ | ⟨rfl, _⟩ | otherKnown
    · rw [digit_not_letter digit] at letter
      contradiction
    · rfl
    · rw [(symbol_spec otherKnown).2.1] at letter
      contradiction
  · obtain ⟨digit, letter, _, _, sign⟩ := symbol_spec known
    rcases right with ⟨rfl, also⟩ | ⟨rfl, also⟩ | otherKnown
    · rw [digit] at also
      contradiction
    · rw [letter] at also
      contradiction
    · rw [(symbol_spec otherKnown).2.2.2.2] at sign
      cases sign
      rfl

theorem found_of_longest {kind : Kind} {text rest : List Char}
    (longest : Longest kind text (text ++ rest)) :
    longest? (text ++ rest) = some ⟨kind, text, rest⟩ := by
  obtain ⟨lexeme, found, bound⟩ := longest_at_least longest.shape rest
  obtain ⟨shape, starts, most⟩ := longest_of_found found
  have length : lexeme.text.length = text.length :=
    Nat.le_antisymm (longest.longest _ _ shape starts) bound
  have text' : lexeme.text = text :=
    List.IsPrefix.eq_of_length
      (List.prefix_of_prefix_length_le starts longest.starts (Nat.le_of_eq length)) length
  have whole := longest_append found
  obtain ⟨kind', _, rest'⟩ := lexeme
  obtain rfl := text'
  obtain rfl := shape_kind_unique shape longest.shape
  obtain rfl := List.append_cancel_left whole
  exact found

end Lexeme

/-- From the left, a text is the tokens and a rest: each lexeme is the longest one that starts at
its place, and only blanks stand before and between them, and before the rest. -/
inductive Scanned : List Char → List Token → List Char → Prop where
  | stop {gap rest : List Char} (blank : ∀ c ∈ gap, isBlank c) : Scanned (gap ++ rest) [] rest
  | next {gap after rest : List Char} {token : Token} {tokens : List Token}
      (blank : ∀ c ∈ gap, isBlank c)
      (longest : Lexeme.Longest token.kind token.lexeme.toList (token.lexeme.toList ++ after))
      (later : Scanned after tokens rest) :
      Scanned (gap ++ (token.lexeme.toList ++ after)) (token :: tokens) rest

def Stuck (rest : List Char) : Prop :=
  ∃ c cs, rest = c :: cs ∧ isBlank c = false ∧ ∀ kind text, Shape kind text → ¬ text <+: rest

theorem scanned_gap {gap cs rest : List Char} {tokens : List Token}
    (blank : ∀ c ∈ gap, isBlank c) (scanned : Scanned cs tokens rest) :
    Scanned (gap ++ cs) tokens rest := by
  cases scanned with
  | stop all =>
    rw [← List.append_assoc]
    exact .stop (List.forall_mem_append.mpr ⟨blank, all⟩)
  | next all longest later =>
    rw [← List.append_assoc]
    exact .next (List.forall_mem_append.mpr ⟨blank, all⟩) longest later

theorem scanned_before {cs rest : List Char} {tokens : List Token}
    (scanned : Scanned cs tokens rest) :
    ∃ before, cs = before ++ rest ∧ Scanned before tokens [] := by
  induction scanned with
  | @stop gap rest blank =>
    have whole : Scanned (gap ++ []) [] [] := .stop blank
    rw [List.append_nil] at whole
    exact ⟨gap, rfl, whole⟩
  | @next gap _ rest token tokens blank longest later ih =>
    obtain ⟨before, rfl, scannedBefore⟩ := ih
    refine ⟨gap ++ (token.lexeme.toList ++ before), by simp, .next blank ?_ scannedBefore⟩
    refine ⟨longest.shape, List.prefix_append _ _, fun other more shape starts => ?_⟩
    refine longest.longest other more shape (starts.trans ?_)
    rw [← List.append_assoc]
    exact List.prefix_append _ _

theorem scanned_no_end {cs rest : List Char} {tokens : List Token}
    (scanned : Scanned cs tokens rest) : ∀ token ∈ tokens, token.kind ≠ .lineEnd := by
  induction scanned with
  | stop => simp
  | next _ longest _ ih => exact List.forall_mem_cons.mpr ⟨shape_not_end longest.shape, ih⟩

namespace Token

theorem scan_scanned {cs rest : List Char} {tokens : List Token}
    (scanned : Scanned cs tokens rest) : scan cs = (scan rest).map (tokens ++ ·) := by
  induction scanned with
  | stop blank =>
    rw [scan_blanks blank]
    cases scan _ <;> rfl
  | @next gap after rest token tokens blank longest later ih =>
    obtain ⟨shape, ends⟩ := Lexeme.longest_shape (Lexeme.found_of_longest longest)
    rw [scan_blanks blank, scan_lexeme shape ends, ih, String.ofList_toList]
    cases scan rest <;> rfl

theorem scan_stuck {c : Char} {cs : List Char} (stuck : Stuck (c :: cs)) :
    scan (c :: cs) = .error ⟨c, cs⟩ := by
  obtain ⟨_, _, eq, visible, nowhere⟩ := stuck
  cases eq
  have none := (Lexeme.starts_iff (c :: cs)).mpr nowhere
  rw [scan, if_neg (Bool.eq_false_iff.mp visible)]
  split
  · rfl
  · rename_i lexeme found
    rw [none] at found
    contradiction

/-- Scanning goes on to the end of the text or to a place where it cannot go on. -/
theorem scanned_or_stuck (cs : List Char) :
    ∃ words rest, Scanned cs words rest ∧ (rest = [] ∨ Stuck rest) := by
  -- along the scanner itself: each of its steps is one of the rule
  fun_induction scan cs with
  | case1 => exact ⟨[], [], .stop (List.forall_mem_nil _), .inl rfl⟩
  | case2 c rest blank ih =>
    obtain ⟨words, left, scanned, done⟩ := ih
    exact ⟨words, left, scanned_gap (List.forall_mem_singleton.mpr blank) scanned, done⟩
  | case3 c rest visible none =>
    have nowhere := (Lexeme.starts_iff (c :: rest)).mp none
    exact ⟨[], c :: rest, .stop (List.forall_mem_nil _),
      .inr ⟨c, rest, rfl, Bool.eq_false_iff.mpr visible, nowhere⟩⟩
  | case4 c rest visible lexeme found ih =>
    obtain ⟨words, left, scanned, done⟩ := ih
    have text : lexeme.token.lexeme.toList = lexeme.text := String.toList_ofList
    have longest := Lexeme.longest_of_found found
    rw [← Lexeme.longest_append found, ← text] at longest ⊢
    exact ⟨lexeme.token :: words, left, .next (List.forall_mem_nil _) longest scanned, done⟩

theorem scan_to_end {cs : List Char} {words : List Token} (scanned : Scanned cs words []) :
    scan cs = .ok (words ++ [lineEnd]) := by
  rw [scan_scanned scanned, scan]
  rfl

theorem scan_to_stuck {cs rest : List Char} {c : Char} {words : List Token}
    (scanned : Scanned cs words (c :: rest)) (stuck : Stuck (c :: rest)) :
    scan cs = .error ⟨c, rest⟩ := by
  rw [scan_scanned scanned, scan_stuck stuck]
  rfl

theorem scan_ok_iff (cs : List Char) (tokens : List Token) :
    scan cs = .ok tokens ↔ ∃ words, tokens = words ++ [lineEnd] ∧ Scanned cs words [] := by
  constructor
  · intro given
    obtain ⟨words, rest, scanned, rfl | stuck⟩ := scanned_or_stuck cs
    · rw [scan_to_end scanned] at given
      cases given
      exact ⟨words, rfl, scanned⟩
    · obtain ⟨c, after, rfl, _⟩ := id stuck
      rw [scan_to_stuck scanned stuck] at given
      contradiction
  · rintro ⟨words, rfl, scanned⟩
    exact scan_to_end scanned

theorem scan_error_iff (cs : List Char) (fault : Unexpected) :
    scan cs = .error fault ↔
      ∃ words, Scanned cs words (fault.char :: fault.rest) ∧ Stuck (fault.char :: fault.rest) := by
  constructor
  · intro given
    obtain ⟨words, rest, scanned, rfl | stuck⟩ := scanned_or_stuck cs
    · rw [scan_to_end scanned] at given
      contradiction
    · obtain ⟨c, after, rfl, _⟩ := id stuck
      rw [scan_to_stuck scanned stuck] at given
      cases given
      exact ⟨words, scanned, stuck⟩
  · rintro ⟨words, scanned, stuck⟩
    exact scan_to_stuck scanned stuck

theorem error_place {line : String} {fault : Unexpected} (rejected : ofLine line = .error fault) :
    ∃ before, line.toList = before ++ fault.char :: fault.rest ∧
      before.length = fault.index line := by
  obtain ⟨words, scanned, _⟩ := (scan_error_iff _ _).mp rejected
  obtain ⟨before, text, _⟩ := scanned_before scanned
  have length : line.length = before.length + (fault.rest.length + 1) := by
    rw [← String.length_toList, text, List.length_append, List.length_cons]
  refine ⟨before, text, ?_⟩
  rw [Unexpected.index]
  omega

/-- A line has tokens exactly if it is scanned to its end, and these are the tokens, with an end of
line after them. It is rejected exactly where scanning is stuck: what stands before has tokens of
its own, and the message quotes the character at this place. -/
theorem scanned_by_longest_match (line : String) :
    (∀ tokens, ofLine line = .ok tokens ↔
      ∃ words, tokens = words ++ [lineEnd] ∧ (∀ word ∈ words, word.kind ≠ .lineEnd) ∧
        Scanned line.toList words []) ∧
    (∀ fault, ofLine line = .error fault ↔
      ∃ words, Scanned line.toList words (fault.char :: fault.rest) ∧
        Stuck (fault.char :: fault.rest)) ∧
    ∀ fault, ofLine line = .error fault →
      ∃ before words, line.toList = before ++ fault.char :: fault.rest ∧
        before.length = fault.index line ∧
        ofLine (String.ofList before) = .ok (words ++ [lineEnd]) ∧
        fault.summary = "Unexpected character: " ++ quoted (String.singleton fault.char) := by
  refine ⟨fun tokens => ?_, scan_error_iff line.toList, fun fault given => ?_⟩
  · rw [ofLine, scan_ok_iff]
    constructor
    · rintro ⟨words, rfl, scanned⟩
      exact ⟨words, rfl, scanned_no_end scanned, scanned⟩
    · rintro ⟨words, rfl, _, scanned⟩
      exact ⟨words, rfl, scanned⟩
  · obtain ⟨words, scanned, _⟩ := (scan_error_iff _ _).mp given
    obtain ⟨before, text, alone⟩ := scanned_before scanned
    have length : line.length = before.length + (fault.rest.length + 1) := by
      rw [← String.length_toList, text, List.length_append, List.length_cons]
    refine ⟨before, words, text, ?_, ?_, rfl⟩
    · rw [Unexpected.index]
      omega
    · rw [ofLine, String.toList_ofList]
      exact scan_to_end alone

theorem second_point_unexpected :
    ∃ before words, "x1y+1.5.2".toList = before ++ ['.', '2'] ∧
      before.length = 7 ∧ ofLine (String.ofList before) = .ok (words ++ [lineEnd]) ∧
      (Unexpected.mk '.' ['2']).summary = "Unexpected character: '.'" ∧ Stuck ['.', '2'] := by
  obtain ⟨_, errors, places⟩ := scanned_by_longest_match "x1y+1.5.2"
  have rejected : ofLine "x1y+1.5.2" = .error ⟨'.', ['2']⟩ := by decide +kernel
  obtain ⟨_, _, stuck⟩ := (errors _).mp rejected
  obtain ⟨before, words, text, length, alone, summary⟩ := places _ rejected
  have index : (Unexpected.mk '.' ['2']).index "x1y+1.5.2" = 7 := by decide +kernel
  have shown : "Unexpected character: " ++ quoted (String.singleton '.') =
      "Unexpected character: '.'" := by decide +kernel
  exact ⟨before, words, text, length.trans index, alone, summary.trans shown, stuck⟩

end Token
end Reckoner

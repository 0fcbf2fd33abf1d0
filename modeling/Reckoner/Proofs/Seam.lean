import Reckoner.Proofs.LongestMatch

/- Two lines put together. Where the second one starts with something that no lexeme goes on with,
   scanning does not see across the seam: the tokens are those of both lines, and the whole is
   rejected where the first of them is that is rejected. -/
namespace Reckoner
open Text

namespace Lexeme
variable {cs ds : List Char}

theorem longest_append_clear {lexeme : Lexeme} (found : longest? cs = some lexeme)
    (clear : Clear ds) :
    longest? (cs ++ ds) = some ⟨lexeme.kind, lexeme.text, lexeme.rest ++ ds⟩ := by
  obtain ⟨shape, ends⟩ := longest_shape found
  rw [← longest_append found, List.append_assoc]
  exact longest_of_shape shape (ends_append ends clear)

theorem longest_none_append {c : Char} (nowhere : longest? (c :: cs) = none) (ds : List Char) :
    longest? (c :: (cs ++ ds)) = none := by
  simp only [longest?] at nowhere ⊢
  split at nowhere
  · contradiction
  · rename_i digit
    split at nowhere
    · contradiction
    · rename_i letter
      rw [if_neg digit, if_neg letter, Option.map_eq_none_iff.mp nowhere, Option.map_none]

end Lexeme

def Unexpected.before (fault : Unexpected) (ds : List Char) : Unexpected :=
  ⟨fault.char, fault.rest ++ ds⟩

namespace Token

theorem scan_found {cs : List Char} {lexeme : Lexeme} (found : Lexeme.longest? cs = some lexeme) :
    scan cs = (scan lexeme.rest).map (lexeme.token :: ·) := by
  obtain ⟨shape, ends⟩ := Lexeme.longest_shape found
  rw [← Lexeme.longest_append found, scan_lexeme shape ends]
  rfl

/-- Scanning goes on in the second text where it is done with the first. -/
theorem scan_append_clear (cs : List Char) {ds : List Char} (clear : Lexeme.Clear ds) :
    scan (cs ++ ds) =
      match scan cs with
      | .ok tokens => (scan ds).map (tokens.dropLast ++ ·)
      | .error fault => .error (fault.before ds) := by
  fun_induction scan cs with
  | case1 =>
    rw [List.nil_append]
    cases scan ds <;> rfl
  | case2 c rest blank ih =>
    have blanks : ∀ d ∈ [c], isBlank d := List.forall_mem_singleton.mpr blank
    exact (scan_blanks blanks (rest ++ ds)).trans ih
  | case3 c rest visible nowhere =>
    have farther := Lexeme.longest_none_append nowhere ds
    exact scan_stuck ⟨c, _, rfl, Bool.eq_false_iff.mpr visible, (Lexeme.starts_iff _).mp farther⟩
  | case4 c rest visible lexeme found ih =>
    rw [scan_found (Lexeme.longest_append_clear found clear), ih]
    cases first : scan lexeme.rest with
    | error fault => rfl
    | ok tokens =>
      obtain ⟨words, rfl, _⟩ := spread_of_scan first
      cases scan ds <;> simp [Except.map, Lexeme.token, List.dropLast_cons_of_ne_nil]

theorem clear_of_sign {ds : List Char}
    (start : ∀ c ∈ ds.head?, isBlank c ∨ (Lexeme.sign? c).isSome) : Lexeme.Clear ds := by
  cases ds with
  | nil => exact Lexeme.clear_nil
  | cons c ds =>
    rcases start c rfl with blank | sign
    · exact blank_clear (List.forall_mem_singleton.mpr blank) (List.cons_ne_nil c []) ds
    · obtain ⟨kind, known⟩ := Option.isSome_iff_exists.mp sign
      have symbol := Lexeme.symbol_of_sign known
      obtain ⟨digit, letter, _, point, _⟩ := Lexeme.symbol_spec symbol
      exact Lexeme.clear_of_head digit letter point ds

theorem clear_apart {w v : String} (blank : ∀ c ∈ w.toList, isBlank c)
    (apart : w ≠ "" ∨ ∀ c ∈ v.toList.head?, isBlank c ∨ (Lexeme.sign? c).isSome) :
    Lexeme.Clear (w.toList ++ v.toList) := by
  by_cases touching : w = ""
  · subst touching
    exact clear_of_sign (apart.resolve_left fun some => some rfl)
  · exact blank_clear blank (fun none => touching (String.toList_eq_nil_iff.mp none)) v.toList

theorem index_before (fault : Unexpected) (u v : String) :
    (fault.before v.toList).index (u ++ v) = fault.index u := by
  simp only [Unexpected.index, Unexpected.before, String.length_append, List.length_append,
    String.length_toList]
  omega

theorem index_behind {v : String} {fault : Unexpected} (rejected : ofLine v = .error fault)
    (u : String) : fault.index (u ++ v) = u.length + fault.index v := by
  obtain ⟨before, text, _⟩ := error_place rejected
  have inside := congrArg List.length text
  rw [String.length_toList, List.length_append, List.length_cons] at inside
  rw [Unexpected.index, Unexpected.index, String.length_append]
  omega

/-- Two lines with blanks between them; without any, the second starts with a blank or a symbol, if
it has a start. The tokens of the whole are those of both lines, with one end of line behind them.
If the first line is rejected, the whole is rejected at the same place, and if only the second one
is, at its place in the whole, each time with the same words. -/
theorem lines_scanned_apart {u w v : String} (blank : ∀ c ∈ w.toList, isBlank c)
    (apart : w ≠ "" ∨ ∀ c ∈ v.toList.head?, isBlank c ∨ (Lexeme.sign? c).isSome) :
    (∀ xs ys, ofLine u = .ok xs → ofLine v = .ok ys →
      ∃ words, xs = words ++ [lineEnd] ∧ ofLine (u ++ w ++ v) = .ok (words ++ ys)) ∧
    (∀ fault, ofLine u = .error fault →
      ∃ moved, ofLine (u ++ w ++ v) = .error moved ∧
        moved.index (u ++ w ++ v) = fault.index u ∧ moved.summary = fault.summary) ∧
    ∀ xs fault, ofLine u = .ok xs → ofLine v = .error fault →
      ∃ moved, ofLine (u ++ w ++ v) = .error moved ∧
        moved.index (u ++ w ++ v) = u.length + w.length + fault.index v ∧
        moved.summary = fault.summary := by
  have scanned : ofLine (u ++ (w ++ v)) =
      match ofLine u with
      | .ok tokens => (ofLine v).map (tokens.dropLast ++ ·)
      | .error fault => .error (fault.before (w ++ v).toList) := by
    have clear := clear_apart blank apart
    rw [ofLine, String.toList_append, String.toList_append, scan_append_clear _ clear,
      scan_blanks blank]
    rfl
  rw [String.append_assoc, scanned]
  refine ⟨fun xs ys first second => ?_, fun fault first => ?_, fun xs fault first second => ?_⟩
  · obtain ⟨words, rfl, _⟩ := spread_of_scan first
    refine ⟨words, rfl, ?_⟩
    simp only [first, second, List.dropLast_concat]
    rfl
  · rw [first]
    exact ⟨_, rfl, index_before fault u (w ++ v), rfl⟩
  · rw [first, second]
    refine ⟨fault, rfl, ?_, rfl⟩
    rw [← String.append_assoc, index_behind second, String.length_append]

/-- A point between digits makes a fraction. Behind a blank it starts nothing, and the line is
rejected at the point, one place behind the blank. -/
theorem fraction_torn_apart :
    ofLine ("2" ++ ".5") = .ok [⟨.number, "2.5"⟩, lineEnd] ∧ (∀ c ∈ " ".toList, isBlank c) ∧
      ofLine "2" = .ok [⟨.number, "2"⟩, lineEnd] ∧ ofLine ".5" = .error ⟨'.', ['5']⟩ ∧
      ∃ moved, ofLine ("2" ++ " " ++ ".5") = .error moved ∧
        moved.index ("2" ++ " " ++ ".5") = 2 ∧ moved.summary = "Unexpected character: '.'" := by
  have blank : ∀ c ∈ " ".toList, isBlank c := List.all_eq_true.mp (by decide +kernel)
  have first : ofLine "2" = .ok [⟨.number, "2"⟩, lineEnd] := by decide +kernel
  have second : ofLine ".5" = .error ⟨'.', ['5']⟩ := by decide +kernel
  obtain ⟨_, _, later⟩ := lines_scanned_apart (v := ".5") blank (.inl (by decide))
  obtain ⟨moved, rejected, index, summary⟩ := later _ _ first second
  have place : "2".length + " ".length + (Unexpected.mk '.' ['5']).index ".5" = 2 := by
    decide +kernel
  have shown : (Unexpected.mk '.' ['5']).summary = "Unexpected character: '.'" := by decide +kernel
  exact ⟨by decide +kernel, blank, first, second, moved, rejected, index.trans place,
    summary.trans shown⟩

end Token
end Reckoner

import Reckoner.Proofs.LongestMatch

/- The message for a character that starts no lexeme. It shows the part of the line around the
   place, dots where the line goes on, and a caret under the character. -/
namespace Reckoner.Unexpected
open Text Token

def dots (hidden : List Char) : List Char :=
  if hidden = [] then [] else ['.', '.', '.']

def excerpt (left shown right : List Char) : List Char :=
  dots left ++ shown ++ dots right

theorem dots_of_length (hidden : List Char) :
    (if 0 < hidden.length then "..." else "") = String.ofList (dots hidden) := by
  cases hidden <;> rfl

variable {line : String} {fault : Unexpected} {left shown right : List Char}

theorem append_excerpt (before : String) (left shown right : List Char) :
    before ++ String.ofList (excerpt left shown right) = before ++ String.ofList (dots left) ++
      String.ofList shown ++ String.ofList (dots right) := by
  simp only [excerpt, String.ofList_append, String.append_assoc]

theorem message_of_parts (parts : line.toList = left ++ shown ++ right)
    (start : fault.index line - margin = left.length)
    (stop : min line.length (fault.index line + margin) = (left ++ shown).length) :
    fault.message line = "[Tokenizer error] " ++ fault.summary ++ "\n"
      ++ String.ofList (excerpt left shown right) ++ "\n"
      ++ String.ofList
        (List.replicate ((dots left).length + (fault.index line - left.length)) ' ') ++ "^" := by
  have whole : line.length = (left ++ shown).length + right.length := by
    rw [← String.length_toList, parts, List.length_append]
  have behind : (if (left ++ shown).length < line.length then "..." else "") =
      String.ofList (dots right) := by
    have goesOn : (left ++ shown).length < line.length ↔ 0 < right.length := by omega
    rw [← dots_of_length, if_congr goesOn rfl rfl]
  have inside : (line.toList.take (left ++ shown).length).drop left.length = shown := by
    rw [parts, List.take_left, List.drop_left]
  unfold message
  simp only [start, stop, inside, behind, dots_of_length, String.length_ofList]
  rw [append_excerpt]

theorem excerpt_at {index : Nat} (low : left.length ≤ index)
    (high : index < (left ++ shown).length) :
    (excerpt left shown right)[(dots left).length + (index - left.length)]? =
      (left ++ shown ++ right)[index]? := by
  rw [List.length_append] at high
  have short : index - left.length < shown.length := by omega
  rw [excerpt, List.append_assoc, List.append_assoc, List.getElem?_append_right (by omega),
    List.getElem?_append_right low, Nat.add_sub_cancel_left, List.getElem?_append_left short,
    List.getElem?_append_left short]

theorem exists_parts {index : Nat} (place : index < line.length) :
    ∃ left shown right, line.toList = left ++ shown ++ right ∧ left.length = index - 10 ∧
      (left ++ shown).length = min line.length (index + 10) := by
  generalize ends : min line.length (index + 10) = stop
  have size : (line.toList.take stop).length = stop := by
    rw [List.length_take, String.length_toList]
    omega
  refine ⟨(line.toList.take stop).take (index - 10), (line.toList.take stop).drop (index - 10),
    line.toList.drop stop, ?_, ?_, ?_⟩
  · rw [List.take_append_drop, List.take_append_drop]
  · rw [List.length_take, size]
    omega
  · rw [List.take_append_drop, size]

/-- The message quotes the character at which the line is rejected and shows the line from ten
characters before it to ten behind, as far as there are so many. Dots stand for what is cut off, on
each side only if something is. The caret in the last line stands below the same character. -/
theorem message_points_at_character (rejected : ofLine line = .error fault) :
    ∃ left shown right caret, line.toList = left ++ shown ++ right ∧
      left.length = fault.index line - 10 ∧
      (left ++ shown).length = min line.length (fault.index line + 10) ∧
      fault.message line = "[Tokenizer error] " ++ fault.summary ++ "\n"
        ++ String.ofList (excerpt left shown right) ++ "\n"
        ++ String.ofList (List.replicate caret ' ') ++ "^" ∧
      line.toList[fault.index line]? = some fault.char ∧
      fault.summary = "Unexpected character: " ++ quoted (String.singleton fault.char) ∧
      ∃ inside : caret < (excerpt left shown right).length,
        (excerpt left shown right)[caret] = fault.char := by
  obtain ⟨before, text, place⟩ := error_place rejected
  have length : line.length = before.length + (fault.rest.length + 1) := by
    rw [← String.length_toList, text, List.length_append, List.length_cons]
  obtain ⟨left, shown, right, parts, start, stop⟩ :=
    @exists_parts line (fault.index line) (by omega)
  have here : line.toList[fault.index line]? = some fault.char := by
    rw [text, ← place, List.getElem?_append_right (Nat.le_refl _), Nat.sub_self]
    rfl
  have low : left.length ≤ fault.index line := by omega
  have caret := @excerpt_at left shown right _ low (by omega)
  rw [← parts, here] at caret
  exact ⟨left, shown, right, _, parts, start, stop, message_of_parts parts start.symm stop.symm,
    here, rfl, List.getElem?_eq_some_iff.mp caret⟩

theorem dots_on_both_sides :
    let line := "1 + 2 + 3 + 4 $ 5 + 6 + 7 + 8"
    let fault : Unexpected := ⟨'$', " 5 + 6 + 7 + 8".toList⟩
    ofLine line = .error fault ∧
      fault.message line = "[Tokenizer error] Unexpected character: '$'\n" ++
        "...2 + 3 + 4 $ 5 + 6 + ...\n" ++ "             ^" ∧
      ∃ left shown right caret, line.toList = left ++ shown ++ right ∧ left.length = 4 ∧
        (left ++ shown).length = 24 ∧ ∃ inside : caret < (excerpt left shown right).length,
          (excerpt left shown right)[caret] = '$' := by
  intro line fault
  have rejected : ofLine line = .error fault := by decide +kernel
  obtain ⟨left, shown, right, caret, parts, start, stop, _, _, _, inside⟩ :=
    message_points_at_character rejected
  have index : fault.index line = 14 := by decide +kernel
  have length : line.length = 29 := by decide +kernel
  rw [index] at start stop
  rw [length] at stop
  exact ⟨rejected, by decide +kernel, left, shown, right, caret, parts, start, stop, inside⟩

end Reckoner.Unexpected

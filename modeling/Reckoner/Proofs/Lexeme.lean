import Reckoner.Token.Scan

/- The shapes of lexemes, and when a lexeme at the start of some text is the longest one there.
   Shapes are given by themselves and not through the scanner. -/
namespace Reckoner
open Text

def Kind.symbol? : Kind → Option Char
  | .plus => some '+'
  | .minus => some '-'
  | .star => some '*'
  | .slash => some '/'
  | .caret => some '^'
  | .equal => some '='
  | .bracketOpen => some '('
  | .bracketClose => some ')'
  | _ => none

inductive Shape : Kind → List Char → Prop where
  | whole {digits : List Char} (some : digits ≠ []) (all : ∀ c ∈ digits, c.isDigit) :
      Shape .number digits
  | fraction {whole digits : List Char} (someWhole : whole ≠ []) (some : digits ≠ [])
      (allWhole : ∀ c ∈ whole, c.isDigit) (all : ∀ c ∈ digits, c.isDigit) :
      Shape .number (whole ++ '.' :: digits)
  | identifier {letters digits : List Char} (some : letters ≠ [])
      (allLetters : ∀ c ∈ letters, c.isAlpha) (all : ∀ c ∈ digits, c.isDigit) :
      Shape .identifier (letters ++ digits)
  | symbol {kind : Kind} {c : Char} (known : kind.symbol? = some c) : Shape kind [c]

/-- Tokens as a scanner makes them. -/
def Token.Shaped (token : Token) : Prop :=
  token = lineEnd ∨ Shape token.kind token.lexeme.toList

theorem shape_first {kind : Kind} {text : List Char} (shape : Shape kind text) :
    ∃ c cs, text = c :: cs ∧
      (kind = .number ∧ c.isDigit ∨ kind = .identifier ∧ c.isAlpha ∨ kind.symbol? = some c) := by
  cases shape with
  | whole some all =>
    obtain ⟨c, cs, rfl⟩ := List.exists_cons_of_ne_nil some
    exact ⟨c, cs, rfl, .inl ⟨rfl, all c (by simp)⟩⟩
  | fraction someWhole _ allWhole _ =>
    obtain ⟨c, cs, rfl⟩ := List.exists_cons_of_ne_nil someWhole
    exact ⟨c, _, rfl, .inl ⟨rfl, allWhole c (by simp)⟩⟩
  | identifier some allLetters _ =>
    obtain ⟨c, cs, rfl⟩ := List.exists_cons_of_ne_nil some
    exact ⟨c, _, rfl, .inr (.inl ⟨rfl, allLetters c (by simp)⟩)⟩
  | @symbol _ c known => exact ⟨c, [], rfl, .inr (.inr known)⟩

theorem shape_not_end {kind : Kind} {text : List Char} (shape : Shape kind text) :
    kind ≠ .lineEnd := by
  rintro rfl
  obtain ⟨c, cs, _, (⟨kind, _⟩ | ⟨kind, _⟩ | known)⟩ := shape_first shape
  · contradiction
  · contradiction
  · simp [Kind.symbol?] at known

namespace Lexeme

/-- The text after a lexeme does not make it longer. -/
def Ends : Kind → (text rest : List Char) → Prop
  | .number, text, rest =>
    (∀ c ∈ rest.head?, ¬ c.isDigit) ∧
      ('.' ∉ text → ∀ c after, rest = '.' :: c :: after → ¬ c.isDigit)
  | .identifier, text, rest =>
    (∀ c ∈ rest.head?, ¬ c.isDigit) ∧
      ((∀ c ∈ text, c.isAlpha) → ∀ c ∈ rest.head?, ¬ c.isAlpha)
  | _, _, _ => True

def Clear (rest : List Char) : Prop :=
  ∀ c ∈ rest.head?, ¬ c.isDigit ∧ ¬ c.isAlpha ∧ c ≠ '.'

theorem clear_ends {rest : List Char} (clear : Clear rest) (kind : Kind) (text : List Char) :
    Ends kind text rest := by
  cases kind <;> simp only [Ends]
  case number =>
    refine ⟨fun c first => (clear c first).1, ?_⟩
    intro _ c after eq
    exact absurd rfl (clear '.' (by simp [eq])).2.2
  case identifier =>
    exact ⟨fun c first => (clear c first).1, fun _ c first => (clear c first).2.1⟩

theorem ends_append {kind : Kind} {text cs ds : List Char} (ends : Ends kind text cs)
    (clear : Clear ds) : Ends kind text (cs ++ ds) := by
  cases cs with
  | nil => exact clear_ends clear kind text
  | cons c cs =>
    cases kind <;> simp only [Ends] at ends ⊢
    case identifier => exact ends
    case number =>
      refine ⟨ends.1, fun noPoint d after eq => ?_⟩
      rw [List.cons_append, List.cons.injEq] at eq
      cases cs with
      | nil =>
        -- a point at the end of the first text would need a digit at the start of the second
        have first : ds.head? = some d := congrArg List.head? eq.2
        exact (clear d first).1
      | cons e cs =>
        rw [List.cons_append, List.cons.injEq] at eq
        exact ends.2 noPoint d cs (by rw [eq.1, eq.2.1])

theorem clear_nil : Clear [] := by
  intro c first
  simp at first

theorem clear_of_head {c : Char} (digit : c.isDigit = false) (letter : c.isAlpha = false)
    (point : c ≠ '.') (rest : List Char) : Clear (c :: rest) := by
  intro d first
  simp only [List.head?_cons, Option.mem_def, Option.some.injEq] at first
  subst first
  simp [digit, letter, point]

theorem digit_bounds {c : Char} (digit : c.isDigit) : 48 ≤ c.toNat ∧ c.toNat ≤ 57 := by
  simp only [Char.isDigit, Bool.and_eq_true, decide_eq_true_eq] at digit
  exact ⟨UInt32.le_iff_toNat_le.mp digit.1, UInt32.le_iff_toNat_le.mp digit.2⟩

theorem letter_bounds {c : Char} (letter : c.isAlpha) : 65 ≤ c.toNat ∧ c.toNat ≤ 122 := by
  rcases Bool.or_eq_true_iff.mp letter with upper | lower
  · obtain ⟨low, high⟩ : 'A'.val ≤ c.val ∧ c.val ≤ 'Z'.val := of_decide_eq_true upper
    have low : 65 ≤ c.toNat := UInt32.le_iff_toNat_le.mp low
    have high : c.toNat ≤ 90 := UInt32.le_iff_toNat_le.mp high
    omega
  · obtain ⟨low, high⟩ := Bool.and_eq_true_iff.mp lower
    have low : 97 ≤ c.toNat := UInt32.le_iff_toNat_le.mp (of_decide_eq_true low)
    have high : c.toNat ≤ 122 := UInt32.le_iff_toNat_le.mp (of_decide_eq_true high)
    omega

theorem digit_not_letter {c : Char} (digit : c.isDigit) : c.isAlpha = false := by
  refine Bool.eq_false_iff.mpr fun letter => ?_
  have low := letter_bounds letter
  have high := digit_bounds digit
  omega

theorem letter_not_digit {c : Char} (letter : c.isAlpha) : c.isDigit = false := by
  refine Bool.eq_false_iff.mpr fun digit => ?_
  rw [digit_not_letter digit] at letter
  exact Bool.false_ne_true letter

theorem symbol_spec {kind : Kind} {c : Char} (known : kind.symbol? = some c) :
    c.isDigit = false ∧ c.isAlpha = false ∧ isBlank c = false ∧ c ≠ '.' ∧ sign? c = some kind := by
  cases kind <;> simp only [Kind.symbol?, Option.some.injEq, reduceCtorEq] at known <;>
    subst known <;> decide

theorem symbol_of_sign {kind : Kind} {c : Char} (known : sign? c = some kind) :
    kind.symbol? = some c := by
  unfold sign? at known
  split at known <;> simp only [Option.some.injEq, reduceCtorEq] at known <;> subst known <;> rfl

theorem take_drop_of_all {p : Char → Bool} {text rest : List Char} (all : ∀ c ∈ text, p c)
    (stop : ∀ c ∈ rest.head?, ¬ p c) :
    (text ++ rest).takeWhile p = text ∧ (text ++ rest).dropWhile p = rest := by
  rw [List.takeWhile_append_of_pos all, List.dropWhile_append_of_pos all]
  cases rest with
  | nil => simp
  | cons c rest =>
    have first : ¬ p c := stop c (by simp)
    rw [List.takeWhile_cons_of_neg first, List.dropWhile_cons_of_neg first, List.append_nil]
    exact ⟨rfl, rfl⟩

theorem all_takeWhile (p : Char → Bool) (cs : List Char) : ∀ c ∈ cs.takeWhile p, p c :=
  List.all_eq_true.mp List.all_takeWhile

theorem head_dropWhile (p : Char → Bool) (cs : List Char) :
    ∀ c ∈ (cs.dropWhile p).head?, ¬ p c := by
  intro c first
  have stopped := List.head?_dropWhile_not p cs
  rw [Option.mem_def.mp first] at stopped
  simp [stopped]

theorem takeWhile_ne_nil {p : Char → Bool} {c : Char} (yes : p c) (cs : List Char) :
    (c :: cs).takeWhile p ≠ [] := by
  simp [yes]

theorem point_not_mem {text : List Char} (all : ∀ c ∈ text, c.isDigit) : '.' ∉ text := by
  intro member
  exact absurd (all '.' member) (by decide)

theorem number_shape {c : Char} (digit : c.isDigit) (cs : List Char) :
    (number (c :: cs)).kind = .number ∧ Shape .number (number (c :: cs)).text ∧
      Ends .number (number (c :: cs)).text (number (c :: cs)).rest := by
  have whole := takeWhile_ne_nil digit cs
  have digits := all_takeWhile Char.isDigit (c :: cs)
  have stop := head_dropWhile Char.isDigit (c :: cs)
  simp only [number]
  split
  · rename_i d rest tail
    rw [tail] at stop
    split
    · rename_i digitAfter
      have more := takeWhile_ne_nil digitAfter rest
      refine ⟨rfl, .fraction whole more digits (all_takeWhile _ _), head_dropWhile _ _, ?_⟩
      intro noPoint
      simp at noPoint
    · rename_i noDigit
      refine ⟨rfl, .whole whole digits, stop, ?_⟩
      intro _ e after eq
      simp only [List.cons.injEq, true_and] at eq
      rw [← eq.1]
      exact noDigit
  · rename_i none
    refine ⟨rfl, .whole whole digits, stop, ?_⟩
    intro _ e after eq
    exact absurd eq (none e after)

theorem identifier_shape {c : Char} (letter : c.isAlpha) (cs : List Char) :
    (identifier (c :: cs)).kind = .identifier ∧ Shape .identifier (identifier (c :: cs)).text ∧
      Ends .identifier (identifier (c :: cs)).text (identifier (c :: cs)).rest := by
  have letters := takeWhile_ne_nil letter cs
  have all := all_takeWhile Char.isAlpha (c :: cs)
  have stop := head_dropWhile Char.isAlpha (c :: cs)
  simp only [identifier]
  refine ⟨trivial, .identifier letters all (all_takeWhile _ _), head_dropWhile _ _, ?_⟩
  intro onlyLetters d first
  generalize (c :: cs).dropWhile Char.isAlpha = tail at *
  cases tail with
  | nil => simp at first
  | cons e tail =>
    by_cases digit : e.isDigit
    · -- a digit of the lexeme would be a letter
      have member : e ∈ (e :: tail).takeWhile Char.isDigit := by simp [digit]
      have both := onlyLetters e (List.mem_append_right _ member)
      rw [digit_not_letter digit] at both
      exact absurd both (by simp)
    · simp only [List.dropWhile_cons, digit, Bool.false_eq_true, ↓reduceIte] at first
      exact stop d first

theorem longest_shape {cs : List Char} {lexeme : Lexeme} (found : longest? cs = some lexeme) :
    Shape lexeme.kind lexeme.text ∧ Ends lexeme.kind lexeme.text lexeme.rest := by
  cases cs with
  | nil => simp [longest?] at found
  | cons c cs =>
    simp only [longest?] at found
    split at found
    · rename_i digit
      cases found
      obtain ⟨kind, shape, ends⟩ := number_shape digit cs
      rw [kind]
      exact ⟨shape, ends⟩
    · split at found
      · rename_i letter
        cases found
        obtain ⟨kind, shape, ends⟩ := identifier_shape letter cs
        rw [kind]
        exact ⟨shape, ends⟩
      · obtain ⟨kind, known, rfl⟩ := Option.map_eq_some_iff.mp found
        have symbol := symbol_of_sign known
        refine ⟨.symbol symbol, ?_⟩
        cases kind <;> trivial

theorem number_of_whole {digits rest : List Char} (all : ∀ c ∈ digits, c.isDigit)
    (ends : Ends .number digits rest) : number (digits ++ rest) = ⟨.number, digits, rest⟩ := by
  obtain ⟨taken, dropped⟩ := take_drop_of_all all ends.1
  simp only [number, taken, dropped]
  split
  · rename_i c after
    have noDigit := ends.2 (point_not_mem all) c after rfl
    simp [noDigit]
  · rfl

theorem number_of_fraction {whole digits rest : List Char} (some : digits ≠ [])
    (allWhole : ∀ c ∈ whole, c.isDigit) (all : ∀ c ∈ digits, c.isDigit)
    (ends : Ends .number (whole ++ '.' :: digits) rest) :
    number (whole ++ '.' :: digits ++ rest) = ⟨.number, whole ++ '.' :: digits, rest⟩ := by
  obtain ⟨taken, dropped⟩ : ((whole ++ '.' :: (digits ++ rest)).takeWhile Char.isDigit = whole) ∧
      ((whole ++ '.' :: (digits ++ rest)).dropWhile Char.isDigit = '.' :: (digits ++ rest)) :=
    take_drop_of_all allWhole (by simp)
  obtain ⟨fraction, after⟩ := take_drop_of_all all ends.1
  simp only [List.append_assoc, List.cons_append, number, taken, dropped]
  cases digits with
  | nil => contradiction
  | cons d digits =>
    have digit : d.isDigit := all d (by simp)
    simp only [List.cons_append] at fraction after ⊢
    simp only [digit, ↓reduceIte, fraction, after]

theorem identifier_of_shape {letters digits rest : List Char}
    (allLetters : ∀ c ∈ letters, c.isAlpha) (all : ∀ c ∈ digits, c.isDigit)
    (ends : Ends .identifier (letters ++ digits) rest) :
    identifier (letters ++ digits ++ rest) = ⟨.identifier, letters ++ digits, rest⟩ := by
  have stop : ∀ c ∈ (digits ++ rest).head?, ¬ c.isAlpha := by
    intro c first
    cases digits with
    | nil =>
      refine ends.2 ?_ c first
      intro d member
      rw [List.append_nil] at member
      exact allLetters d member
    | cons d digits =>
      simp only [List.cons_append, List.head?_cons, Option.mem_def, Option.some.injEq] at first
      subst first
      simp [digit_not_letter (all d (by simp))]
  obtain ⟨taken, dropped⟩ := take_drop_of_all allLetters stop
  obtain ⟨following, after⟩ := take_drop_of_all all ends.1
  simp only [identifier, List.append_assoc, taken, dropped, following, after]

/-- The text of a shape that does not go on is found as the longest lexeme. -/
theorem longest_of_shape {kind : Kind} {text rest : List Char} (shape : Shape kind text)
    (ends : Ends kind text rest) : longest? (text ++ rest) = some ⟨kind, text, rest⟩ := by
  cases shape with
  | whole some all =>
    have read := number_of_whole all ends
    cases text with
    | nil => contradiction
    | cons c text =>
      have digit : c.isDigit := all c (by simp)
      simpa [longest?, digit] using read
  | @fraction whole digits someWhole some allWhole all =>
    have read := number_of_fraction some allWhole all ends
    cases whole with
    | nil => contradiction
    | cons c whole =>
      have digit : c.isDigit := allWhole c (by simp)
      simpa [longest?, digit] using read
  | @identifier letters digits some allLetters all =>
    have read := identifier_of_shape allLetters all ends
    cases letters with
    | nil => contradiction
    | cons c letters =>
      have letter : c.isAlpha := allLetters c (by simp)
      simpa [longest?, letter, letter_not_digit letter] using read
  | @symbol kind c known =>
    obtain ⟨digit, letter, _, _, sign⟩ := symbol_spec known
    simp [longest?, digit, letter, sign]

end Lexeme
end Reckoner

import Reckoner.Proofs.Lexeme

/- Lines as tokens with blanks between them. Scanning a line succeeds exactly if the line is spread
   out in this way, and then gives the tokens. -/
namespace Reckoner
open Text

/-- The tokens in order, with blanks between, before and after them. Neighbours may touch, but no
lexeme goes on in the text after it. -/
inductive Spread : List Token → List Char → Prop where
  | done {gap : List Char} (blank : ∀ c ∈ gap, isBlank c) : Spread [] gap
  | next {gap rest : List Char} {token : Token} {tokens : List Token}
      (blank : ∀ c ∈ gap, isBlank c) (shape : Shape token.kind token.lexeme.toList)
      (ends : Lexeme.Ends token.kind token.lexeme.toList rest) (later : Spread tokens rest) :
      Spread (token :: tokens) (gap ++ (token.lexeme.toList ++ rest))

inductive Loose : List Token → List Char → Prop where
  | done {gap : List Char} (blank : ∀ c ∈ gap, isBlank c) : Loose [] gap
  | next {gap rest : List Char} {token : Token} {tokens : List Token}
      (blank : ∀ c ∈ gap, isBlank c) (later : Loose tokens rest) :
      Loose (token :: tokens) (gap ++ (token.lexeme.toList ++ rest))

def Token.IsWord (token : Token) : Prop := token.kind = .number ∨ token.kind = .identifier

def Apart : List Token → Prop
  | left :: right :: rest => ¬ (left.IsWord ∧ right.IsWord) ∧ Apart (right :: rest)
  | _ => True

theorem visible_not_blank {c : Char} (low : 0x20 < c.toNat) (high : c.toNat < 0x7F) :
    isBlank c = false := by
  refine Bool.eq_false_iff.mpr fun blank => ?_
  obtain ⟨range, member, within⟩ := (blanks.contains_iff c).mp blank
  simp only [blanks, List.mem_cons, List.not_mem_nil, or_false] at member
  rcases member with rfl | rfl | rfl | rfl | rfl | rfl | rfl | rfl | rfl | rfl <;>
    simp only at within <;> omega

theorem digit_not_blank {c : Char} (digit : c.isDigit) : isBlank c = false := by
  have bounds := Lexeme.digit_bounds digit
  exact visible_not_blank (by omega) (by omega)

theorem letter_not_blank {c : Char} (letter : c.isAlpha) : isBlank c = false := by
  have bounds := Lexeme.letter_bounds letter
  exact visible_not_blank (by omega) (by omega)

theorem shape_starts {kind : Kind} {text : List Char} (shape : Shape kind text) :
    ∃ c cs, text = c :: cs ∧ isBlank c = false ∧ c ≠ '.' := by
  obtain ⟨c, cs, eq, (⟨_, digit⟩ | ⟨_, letter⟩ | known)⟩ := shape_first shape
  · exact ⟨c, cs, eq, digit_not_blank digit, by rintro rfl; exact absurd digit (by decide)⟩
  · exact ⟨c, cs, eq, letter_not_blank letter, by rintro rfl; exact absurd letter (by decide)⟩
  · obtain ⟨_, _, visible, point, _⟩ := Lexeme.symbol_spec known
    exact ⟨c, cs, eq, visible, point⟩

theorem spread_gap {gap : List Char} (blank : ∀ c ∈ gap, isBlank c) {tokens : List Token}
    {cs : List Char} (spread : Spread tokens cs) : Spread tokens (gap ++ cs) := by
  cases spread with
  | done all => exact .done (List.forall_mem_append.mpr ⟨blank, all⟩)
  | next all shape ends later =>
    rw [← List.append_assoc]
    exact .next (List.forall_mem_append.mpr ⟨blank, all⟩) shape ends later

theorem loose_gap {gap : List Char} (blank : ∀ c ∈ gap, isBlank c) {tokens : List Token}
    {cs : List Char} (loose : Loose tokens cs) : Loose tokens (gap ++ cs) := by
  cases loose with
  | done all => exact .done (List.forall_mem_append.mpr ⟨blank, all⟩)
  | next all later =>
    rw [← List.append_assoc]
    exact .next (List.forall_mem_append.mpr ⟨blank, all⟩) later

theorem spread_not_point {tokens : List Token} {cs : List Char} (spread : Spread tokens cs) :
    ∀ c ∈ cs.head?, c ≠ '.' := by
  have white : ∀ {gap : List Char}, (∀ c ∈ gap, isBlank c) → ∀ c ∈ gap.head?, c ≠ '.' := by
    rintro gap blank c first rfl
    exact absurd (blank '.' (List.mem_of_mem_head? first)) (by decide)
  cases spread with
  | done blank => exact white blank
  | @next gap rest token tokens blank shape ends later =>
    intro c first
    cases gap with
    | nil =>
      obtain ⟨d, ds, text, _, notPoint⟩ := shape_starts shape
      rw [text] at first
      simp only [List.nil_append, List.cons_append, List.head?_cons, Option.mem_def,
        Option.some.injEq] at first
      exact first ▸ notPoint
    | cons d gap => exact white blank c first

theorem ends_of_head {kind : Kind} {text rest other : List Char}
    (ends : Lexeme.Ends kind text rest) (point : ∀ c ∈ rest.head?, c ≠ '.')
    (head : ∀ c ∈ other.head?, c ∈ rest.head? ∨ ¬ c.isDigit ∧ ¬ c.isAlpha ∧ c ≠ '.') :
    Lexeme.Ends kind text other := by
  cases kind <;> simp only [Lexeme.Ends] at ends ⊢
  case number =>
    refine ⟨fun c first => ?_, fun _ c after eq => ?_⟩
    · rcases head c first with same | clear
      · exact ends.1 c same
      · exact clear.1
    · rcases head '.' (by simp [eq]) with same | clear
      · exact absurd rfl (point '.' same)
      · exact absurd rfl clear.2.2
  case identifier =>
    refine ⟨fun c first => ?_, fun all c first => ?_⟩
    · rcases head c first with same | clear
      · exact ends.1 c same
      · exact clear.1
    · rcases head c first with same | clear
      · exact ends.2 all c same
      · exact clear.2.1

theorem spread_append {xs ys : List Token} {cs ds : List Char} (front : Spread xs cs)
    (clear : Lexeme.Clear ds) (back : Spread ys ds) : Spread (xs ++ ys) (cs ++ ds) := by
  induction front with
  | done blank => exact spread_gap blank back
  | @next gap rest token tokens blank shape ends later ih =>
    rw [List.append_assoc, List.append_assoc]
    exact .next blank shape (Lexeme.ends_append ends clear) ih

namespace Token

theorem scan_blanks {gap : List Char} (blank : ∀ c ∈ gap, isBlank c) (cs : List Char) :
    scan (gap ++ cs) = scan cs := by
  induction gap with
  | nil => rfl
  | cons c gap ih =>
    have first : isBlank c = true := blank c (by simp)
    rw [List.cons_append, scan, if_pos first]
    exact ih fun d member => blank d (List.mem_cons_of_mem c member)

theorem scan_lexeme {kind : Kind} {text : List Char} (shape : Shape kind text) {rest : List Char}
    (ends : Lexeme.Ends kind text rest) :
    scan (text ++ rest) = (scan rest).map (⟨kind, String.ofList text⟩ :: ·) := by
  have found := Lexeme.longest_of_shape shape ends
  obtain ⟨c, cs, rfl, first, _⟩ := shape_starts shape
  simp only [List.cons_append] at found ⊢
  rw [scan, if_neg (Bool.eq_false_iff.mp first)]
  split
  · rename_i missing
    rw [missing] at found
    contradiction
  · rename_i lexeme same
    rw [same] at found
    cases found
    rfl

theorem scan_of_spread {tokens : List Token} {cs : List Char} (spread : Spread tokens cs) :
    scan cs = .ok (tokens ++ [lineEnd]) := by
  induction spread with
  | @done gap blank =>
    have scanned := scan_blanks blank []
    rw [List.append_nil] at scanned
    rw [scanned, scan]
    rfl
  | @next gap rest token tokens blank shape ends later ih =>
    rw [scan_blanks blank, scan_lexeme shape ends, ih, String.ofList_toList]
    rfl

theorem spread_of_scan {cs : List Char} {tokens : List Token} (scanned : scan cs = .ok tokens) :
    ∃ words, tokens = words ++ [lineEnd] ∧ Spread words cs := by
  fun_induction scan cs generalizing tokens with
  | case1 =>
    cases scanned
    exact ⟨[], rfl, .done (by simp)⟩
  | case2 c rest blank ih =>
    obtain ⟨words, rfl, spread⟩ := ih scanned
    have white : ∀ d ∈ [c], isBlank d := by simpa using blank
    exact ⟨words, rfl, spread_gap white spread⟩
  | case3 c rest blank missing => simp at scanned
  | case4 c rest blank lexeme found ih =>
    cases later : scan lexeme.rest with
    | error fault => simp [later, Except.map] at scanned
    | ok following =>
      obtain ⟨words, rfl, spread⟩ := ih later
      simp only [later, Except.map, Except.ok.injEq] at scanned
      subst scanned
      obtain ⟨shape, ends⟩ := Lexeme.longest_shape found
      refine ⟨lexeme.token :: words, rfl, ?_⟩
      rw [← Lexeme.longest_append found]
      have text : lexeme.token.lexeme.toList = lexeme.text := String.toList_ofList
      rw [← List.nil_append (lexeme.text ++ lexeme.rest), ← text]
      refine .next (by simp) ?_ ?_ spread
      · rw [text]
        exact shape
      · rw [text]
        exact ends

theorem of_line_iff (line : String) (tokens : List Token) :
    ofLine line = .ok tokens ↔
      ∃ words, tokens = words ++ [lineEnd] ∧ Spread words line.toList := by
  constructor
  · exact spread_of_scan
  · rintro ⟨words, rfl, spread⟩
    exact scan_of_spread spread

theorem apart_append {token : Token} (symbol : ¬ token.IsWord) {xs ys : List Token}
    (left : Apart xs) (right : Apart ys) : Apart (xs ++ token :: ys) := by
  induction xs with
  | nil =>
    cases ys with
    | nil => trivial
    | cons y ys => exact ⟨fun both => symbol both.1, right⟩
  | cons x xs ih =>
    cases xs with
    | nil => exact ⟨fun both => symbol both.2, ih trivial⟩
    | cons y xs => exact ⟨left.1, ih left.2⟩

theorem blank_clear {gap : List Char} (blank : ∀ c ∈ gap, isBlank c) (some : gap ≠ [])
    (rest : List Char) : Lexeme.Clear (gap ++ rest) := by
  intro c first
  obtain ⟨d, gap, rfl⟩ := List.exists_cons_of_ne_nil some
  simp only [List.cons_append, List.head?_cons, Option.mem_def, Option.some.injEq] at first
  subst first
  have white := blank d (by simp)
  refine ⟨?_, ?_, ?_⟩
  · intro digit
    rw [digit_not_blank digit] at white
    contradiction
  · intro letter
    rw [letter_not_blank letter] at white
    contradiction
  · rintro rfl
    exact absurd white (by decide)

theorem symbol_clear {kind : Kind} {text : List Char} (shape : Shape kind text)
    (symbol : kind ≠ .number ∧ kind ≠ .identifier) (rest : List Char) :
    Lexeme.Clear (text ++ rest) := by
  cases shape with
  | whole => exact absurd rfl symbol.1
  | fraction => exact absurd rfl symbol.1
  | identifier => exact absurd rfl symbol.2
  | symbol known =>
    obtain ⟨digit, letter, _, point, _⟩ := Lexeme.symbol_spec known
    exact Lexeme.clear_of_head digit letter point rest

theorem loose_clear {tokens : List Token} {cs : List Char} (loose : Loose tokens cs)
    (shapes : ∀ token ∈ tokens, Shape token.kind token.lexeme.toList)
    (symbol : ∀ token ∈ tokens.head?, ¬ token.IsWord) : Lexeme.Clear cs := by
  cases loose with
  | done blank =>
    by_cases touching : cs = []
    · subst touching
      exact Lexeme.clear_nil
    · have clear := blank_clear blank touching []
      rwa [List.append_nil] at clear
  | @next gap rest token tokens blank later =>
    by_cases touching : gap = []
    · subst touching
      have here : ¬ token.IsWord := symbol token (by simp)
      have kinds := not_or.mp here
      exact symbol_clear (shapes token (by simp)) kinds rest
    · exact blank_clear blank touching _

theorem ends_of_symbol {kind : Kind} (symbol : kind ≠ .number ∧ kind ≠ .identifier)
    (text rest : List Char) : Lexeme.Ends kind text rest := by
  cases kind <;> simp_all [Lexeme.Ends]

theorem spread_of_loose {tokens : List Token} {cs : List Char} (loose : Loose tokens cs)
    (shapes : ∀ token ∈ tokens, Shape token.kind token.lexeme.toList) (apart : Apart tokens) :
    Spread tokens cs := by
  induction loose with
  | done blank => exact .done blank
  | @next gap rest token tokens blank later ih =>
    obtain ⟨shape, shapes⟩ := List.forall_mem_cons.mp shapes
    have tail : Apart tokens := by
      cases tokens with
      | nil => trivial
      | cons => exact apart.2
    refine .next blank shape ?_ (ih shapes tail)
    by_cases word : token.IsWord
    · refine Lexeme.clear_ends (loose_clear later shapes ?_) _ _
      intro second first
      cases tokens with
      | nil => simp at first
      | cons other tokens =>
        simp only [List.head?_cons, Option.mem_def, Option.some.injEq] at first
        subst first
        exact fun also => apart.1 ⟨word, also⟩
    · exact ends_of_symbol (not_or.mp word) _ _

theorem loose_of_spread {tokens : List Token} {cs : List Char} (spread : Spread tokens cs) :
    Loose tokens cs := by
  induction spread with
  | done blank => exact .done blank
  | next blank _ _ _ ih => exact .next blank ih

theorem loose_touching (tokens : List Token) :
    Loose tokens (tokens.flatMap (·.lexeme.toList)) := by
  induction tokens with
  | nil => exact .done (by simp)
  | cons token tokens ih =>
    have blank : ∀ c ∈ ([] : List Char), isBlank c := by simp
    exact .next blank ih

theorem shaped_of_spread {tokens : List Token} {cs : List Char} (spread : Spread tokens cs) :
    ∀ token ∈ tokens, Shape token.kind token.lexeme.toList := by
  induction spread with
  | done => simp
  | next _ shape _ _ ih => exact List.forall_mem_cons.mpr ⟨shape, ih⟩

theorem shaped_of_line {line : String} {tokens : List Token} (scanned : ofLine line = .ok tokens) :
    ∀ token ∈ tokens, token.Shaped := by
  obtain ⟨words, rfl, spread⟩ := (of_line_iff line tokens).mp scanned
  refine List.forall_mem_append.mpr ⟨fun token member => ?_, by simp [Shaped]⟩
  exact .inr (shaped_of_spread spread token member)

end Token
end Reckoner

import Mathlib.Control.Monad.Basic
import Reckoner.Proofs.Spread
import Reckoner.Token.Layout

/- Layouts are read back. Laying out tokens drops blanks beside brackets and carets only, and no
   lexeme goes on across one of these, so the tokens of the line stay what they are. -/
namespace Reckoner
open Text

def IsMark (c : Char) : Prop := c = '(' ∨ c = ')' ∨ c = '^'

def firstVisible (cs : List Char) : Option Char := cs.find? (!isBlank ·)

def Loosened (left right : Option Char) : Prop :=
  (∃ c, left = some c ∧ IsMark c) ∨ ∃ c, right = some c ∧ IsMark c

/-- A text, and what is left of it when some blanks beside marks are dropped. Before both stands
`left`, with nothing but blanks after it. -/
inductive Thinned : (left : Option Char) → List Char → List Char → Prop where
  | done {left : Option Char} : Thinned left [] []
  | blank {left : Option Char} {c : Char} {cs ds : List Char} (blank : isBlank c)
      (later : Thinned left cs ds) : Thinned left (c :: cs) (c :: ds)
  | visible {left : Option Char} {c : Char} {cs ds : List Char} (visible : isBlank c = false)
      (later : Thinned (some c) cs ds) : Thinned left (c :: cs) (c :: ds)
  | drop {left : Option Char} {c : Char} {cs ds : List Char} (blank : isBlank c)
      (mark : Loosened left (firstVisible cs)) (later : Thinned left cs ds) :
      Thinned left (c :: cs) ds

theorem mark_clear {c : Char} (mark : IsMark c) :
    c.isDigit = false ∧ c.isAlpha = false ∧ c ≠ '.' := by
  rcases mark with rfl | rfl | rfl <;> decide

theorem first_visible_gap {gap : List Char} (blank : ∀ c ∈ gap, isBlank c) (cs : List Char) :
    firstVisible (gap ++ cs) = firstVisible cs := by
  have none : gap.find? (!isBlank ·) = none :=
    List.find?_eq_none.mpr fun c member => by simp [blank c member]
  rw [firstVisible, List.find?_append, none, Option.none_or]
  rfl

theorem first_visible_cons {c : Char} (visible : isBlank c = false) (cs : List Char) :
    firstVisible (c :: cs) = some c := by
  simp [firstVisible, visible]

theorem blank_reverse {gap : List Char} (blank : ∀ c ∈ gap, isBlank c) :
    ∀ c ∈ gap.reverse, isBlank c :=
  fun c member => blank c (List.mem_reverse.mp member)

section Passes

variable {left : Option Char} {gap cs ds : List Char}

theorem thinned_keep (blank : ∀ c ∈ gap, isBlank c) (later : Thinned left cs ds) :
    Thinned left (gap ++ cs) (gap ++ ds) := by
  induction gap with
  | nil => exact later
  | cons c gap ih =>
    obtain ⟨first, rest⟩ := List.forall_mem_cons.mp blank
    exact .blank first (ih rest)

theorem thinned_kept (blank : ∀ c ∈ gap, isBlank c) : Thinned left gap gap := by
  induction gap with
  | nil => exact .done
  | cons c gap ih =>
    obtain ⟨first, rest⟩ := List.forall_mem_cons.mp blank
    exact .blank first (ih rest)

theorem thinned_drop (blank : ∀ c ∈ gap, isBlank c) (mark : Loosened left (firstVisible cs))
    (later : Thinned left cs ds) : Thinned left (gap ++ cs) ds := by
  induction gap with
  | nil => exact later
  | cons c gap ih =>
    obtain ⟨first, rest⟩ := List.forall_mem_cons.mp blank
    have behind : Loosened left (firstVisible (gap ++ cs)) := by rwa [first_visible_gap rest]
    exact .drop first behind (ih rest)

end Passes

namespace Layout

theorem loosened_of_tight {left right : Option Char} (close : tight left right) :
    Loosened left right := by
  simp only [tight, Bool.or_eq_true, decide_eq_true_eq, Bool.and_eq_true] at close
  rcases close with (after | before) | ⟨_, call⟩
  · exact .inl ⟨'(', after, .inl rfl⟩
  · exact .inr ⟨')', before, .inr (.inl rfl)⟩
  · exact .inr ⟨'(', call, .inl rfl⟩

theorem thinned_tighten (left : Option Char) (held cs : List Char)
    (blank : ∀ c ∈ held, isBlank c) :
    Thinned left (held.reverse ++ cs) (tighten left held cs) := by
  fun_induction tighten left held cs with
  | case1 left held close =>
    exact thinned_drop (blank_reverse blank) (loosened_of_tight close) .done
  | case2 left held apart =>
    rw [List.append_nil]
    exact thinned_kept (blank_reverse blank)
  | case3 left held c cs here ih =>
    have later := ih (List.forall_mem_cons.mpr ⟨here, blank⟩)
    rwa [List.reverse_cons, List.append_assoc] at later
  | case4 left held c cs visible ih =>
    have here := Bool.eq_false_iff.mpr visible
    have later : Thinned left (c :: cs) (c :: tighten (some c) [] cs) :=
      .visible here (ih (List.forall_mem_nil _))
    split
    · rename_i close
      have mark := loosened_of_tight close
      rw [← first_visible_cons here cs] at mark
      exact thinned_drop (blank_reverse blank) mark later
    · exact thinned_keep (blank_reverse blank) later

theorem loosened_after_caret {left right : Option Char} (caret : left = some '^') :
    Loosened left right :=
  .inl ⟨'^', caret, .inr (.inr rfl)⟩

theorem thinned_join_carets (left : Option Char) (passing : Bool) (held cs : List Char)
    (blank : ∀ c ∈ held, isBlank c) (caret : passing → left = some '^') :
    Thinned left (held.reverse ++ cs) (joinCarets passing held cs) := by
  -- blanks that are held behind a caret are beside this one, and others beside the caret to come
  fun_induction joinCarets passing held cs generalizing left with
  | case1 held =>
    exact thinned_drop (blank_reverse blank) (loosened_after_caret (caret rfl)) .done
  | case2 passing held =>
    rw [List.append_nil]
    exact thinned_kept (blank_reverse blank)
  | case3 passing held c cs here ih =>
    have later := ih left (List.forall_mem_cons.mpr ⟨here, blank⟩) caret
    rwa [List.reverse_cons, List.append_assoc] at later
  | case4 held c cs visible ih =>
    have here := Bool.eq_false_iff.mpr visible
    have later := ih (some c) (List.forall_mem_nil _) (by simp)
    exact thinned_drop (blank_reverse blank) (loosened_after_caret (caret rfl))
      (.visible here later)
  | case5 passing held c cs visible free found ih =>
    obtain ⟨rfl, _, _⟩ := found
    have here := Bool.eq_false_iff.mpr visible
    have later := ih (some '^') (List.forall_mem_nil _) (fun _ => rfl)
    have before : Loosened left (firstVisible ('^' :: cs)) :=
      .inr ⟨'^', first_visible_cons here cs, .inr (.inr rfl)⟩
    exact thinned_drop (blank_reverse blank) before (.visible here later)
  | case6 passing held c cs visible free other ih =>
    have here := Bool.eq_false_iff.mpr visible
    have later := ih (some c) (List.forall_mem_nil _) (by simp)
    exact thinned_keep (blank_reverse blank) (.visible here later)

end Layout

theorem thinned_subset {left : Option Char} {cs ds : List Char} (thinned : Thinned left cs ds) :
    ∀ c ∈ ds, c ∈ cs := by
  induction thinned with
  | done => simp
  | blank _ _ ih =>
    intro c member
    exact List.mem_cons.mpr ((List.mem_cons.mp member).imp_right (ih c))
  | visible _ _ ih =>
    intro c member
    exact List.mem_cons.mpr ((List.mem_cons.mp member).imp_right (ih c))
  | drop _ _ _ ih => exact fun c member => List.mem_cons_of_mem _ (ih c member)

theorem thinned_gap {left : Option Char} {gap cs ds : List Char} (blank : ∀ c ∈ gap, isBlank c)
    (thinned : Thinned left (gap ++ cs) ds) :
    ∃ kept rest, ds = kept ++ rest ∧ (∀ c ∈ kept, isBlank c) ∧ Thinned left cs rest := by
  induction gap generalizing ds with
  | nil => exact ⟨[], ds, rfl, List.forall_mem_nil _, thinned⟩
  | cons c gap ih =>
    obtain ⟨first, others⟩ := List.forall_mem_cons.mp blank
    cases thinned with
    | blank _ later =>
      obtain ⟨kept, rest, rfl, white, thinned⟩ := ih others later
      exact ⟨c :: kept, rest, rfl, List.forall_mem_cons.mpr ⟨first, white⟩, thinned⟩
    | visible visible _ =>
      rw [first] at visible
      contradiction
    | drop _ _ later => exact ih others later

theorem thinned_lexeme {left : Option Char} {text cs ds : List Char} (some : text ≠ [])
    (visible : ∀ c ∈ text, isBlank c = false) (thinned : Thinned left (text ++ cs) ds) :
    ∃ last ∈ text, ∃ rest, ds = text ++ rest ∧ Thinned (.some last) cs rest := by
  induction text generalizing left ds with
  | nil => contradiction
  | cons c text ih =>
    obtain ⟨first, others⟩ := List.forall_mem_cons.mp visible
    cases thinned with
    | blank blank _ =>
      rw [first] at blank
      contradiction
    | drop blank _ _ =>
      rw [first] at blank
      contradiction
    | visible _ later =>
      by_cases alone : text = []
      · subst alone
        exact ⟨c, List.mem_cons_self, _, rfl, later⟩
      · obtain ⟨last, member, rest, rfl, thinned⟩ := ih alone others later
        exact ⟨last, List.mem_cons_of_mem c member, rest, rfl, thinned⟩

theorem thinned_head {last : Char} {cs ds : List Char} (thinned : Thinned (some last) cs ds)
    (plain : ¬ IsMark last) :
    ∀ c ∈ ds.head?, c ∈ cs.head? ∨ ¬ c.isDigit ∧ ¬ c.isAlpha ∧ c ≠ '.' := by
  generalize before : some last = left at thinned
  induction thinned with
  | done => simp
  | blank => exact fun c first => .inl first
  | visible => exact fun c first => .inl first
  | @drop left c cs ds blank mark later ih =>
    intro d first
    rcases ih before d first with same | clear
    · refine .inr ?_
      cases cs with
      | nil => simp at same
      | cons e cs =>
        simp only [List.head?_cons, Option.mem_def, Option.some.injEq] at same
        subst same
        by_cases white : isBlank e
        · exact Token.blank_clear (List.forall_mem_singleton.mpr white) (by simp) cs e (by simp)
        · rw [first_visible_cons (Bool.eq_false_iff.mpr white)] at mark
          rcases mark with ⟨c, after, marked⟩ | ⟨c, next, marked⟩
          · rw [← before] at after
            cases after
            exact absurd marked plain
          · cases next
            simpa using mark_clear marked
    · exact .inr clear

theorem shape_characters {kind : Kind} {text : List Char} (shape : Shape kind text) :
    ∀ c ∈ text, c.isDigit ∨ c.isAlpha ∨ c = '.' ∨ kind.symbol? = some c := by
  cases shape with
  | whole _ all => exact fun c member => .inl (all c member)
  | fraction _ _ allWhole all =>
    intro c member
    rcases List.mem_append.mp member with front | point
    · exact .inl (allWhole c front)
    · rcases List.mem_cons.mp point with rfl | back
      · exact .inr (.inr (.inl rfl))
      · exact .inl (all c back)
  | identifier _ allLetters all =>
    intro c member
    rcases List.mem_append.mp member with front | back
    · exact .inr (.inl (allLetters c front))
    · exact .inl (all c back)
  | symbol known =>
    intro c member
    cases List.mem_singleton.mp member
    exact .inr (.inr (.inr known))

theorem shape_visible {kind : Kind} {text : List Char} (shape : Shape kind text) :
    ∀ c ∈ text, isBlank c = false := by
  intro c member
  rcases shape_characters shape c member with digit | letter | rfl | known
  · exact digit_not_blank digit
  · exact letter_not_blank letter
  · decide
  · exact (Lexeme.symbol_spec known).2.2.1

theorem word_without_marks {token : Token} (word : token.IsWord) {text : List Char}
    (shape : Shape token.kind text) : ∀ c ∈ text, ¬ IsMark c := by
  intro c member mark
  obtain ⟨digit, letter, point⟩ := mark_clear mark
  rcases shape_characters shape c member with isDigit | isLetter | isPoint | known
  · rw [digit] at isDigit
    contradiction
  · rw [letter] at isLetter
    contradiction
  · exact point isPoint
  · rcases word with kind | kind <;> simp [kind, Kind.symbol?] at known

/-- Thinning a text keeps its tokens. -/
theorem spread_thinned {tokens : List Token} {left : Option Char} {cs ds : List Char}
    (spread : Spread tokens cs) (thinned : Thinned left cs ds) : Spread tokens ds := by
  induction spread generalizing left ds with
  | done blank => exact .done fun c member => blank c (thinned_subset thinned c member)
  | @next gap rest token tokens blank shape ends later ih =>
    obtain ⟨kept, _, rfl, white, fromLexeme⟩ := thinned_gap blank thinned
    obtain ⟨c, cs, text, _⟩ := shape_starts shape
    have some : token.lexeme.toList ≠ [] := by simp [text]
    obtain ⟨last, member, after, rfl, fromRest⟩ :=
      thinned_lexeme some (shape_visible shape) fromLexeme
    refine .next white shape ?_ (ih fromRest)
    by_cases word : token.IsWord
    · have plain := word_without_marks word shape last member
      exact ends_of_head ends (spread_not_point later) (thinned_head fromRest plain)
    · exact Token.ends_of_symbol (not_or.mp word) _ _

theorem spread_spaced {words : List Token}
    (shaped : ∀ word ∈ words, Shape word.kind word.lexeme.toList) :
    Spread words (List.intercalate [' '] (words.map (·.lexeme.toList))) := by
  have none : ∀ c ∈ ([] : List Char), isBlank c := List.forall_mem_nil _
  have space : ∀ c ∈ [' '], isBlank c := List.forall_mem_singleton.mpr rfl
  induction words with
  | nil => exact .done none
  | cons word words ih =>
    obtain ⟨shape, others⟩ := List.forall_mem_cons.mp shaped
    cases words with
    | nil =>
      have alone := Spread.next none shape (Lexeme.clear_ends Lexeme.clear_nil _ _) (.done none)
      simpa [List.intercalate] using alone
    | cons next words =>
      have apart := Token.blank_clear space (by simp)
        (List.intercalate [' '] ((next :: words).map (·.lexeme.toList)))
      have whole :=
        Spread.next none shape (Lexeme.clear_ends apart _ _) (spread_gap space (ih others))
      simpa [List.intercalate] using whole

namespace Token

theorem spread_layout {tokens : List Token}
    (shaped : ∀ token ∈ tokens, token.kind ≠ .lineEnd → Shape token.kind token.lexeme.toList) :
    Spread (tokens.filter (·.kind ≠ .lineEnd)) (layout tokens).toList := by
  have words : ∀ word ∈ tokens.filter (·.kind ≠ .lineEnd), Shape word.kind word.lexeme.toList := by
    intro word member
    obtain ⟨member, kind⟩ := List.mem_filter.mp member
    exact shaped word member (by simpa using kind)
  have tightened := Layout.thinned_tighten none [] (Layout.spaced tokens) (List.forall_mem_nil _)
  have joined := Layout.thinned_join_carets none false []
    (Layout.tighten none [] (Layout.spaced tokens)) (List.forall_mem_nil _) (by simp)
  rw [layout, String.toList_ofList]
  exact spread_thinned (spread_thinned (spread_spaced words) tightened) joined

/-- Tokens that are laid out on a line are read back from it, whatever their order is and however
many ends of line there are among them. So a line has the tokens of its layout. -/
theorem layout_read_back :
    (∀ tokens : List Token,
      (∀ token ∈ tokens, token.kind ≠ .lineEnd → Shape token.kind token.lexeme.toList) →
        ofLine (layout tokens) = .ok (tokens.filter (·.kind ≠ .lineEnd) ++ [lineEnd])) ∧
      ∀ line tokens, ofLine line = .ok tokens → ofLine (layout tokens) = .ok tokens := by
  have whole : ∀ tokens : List Token,
      (∀ token ∈ tokens, token.kind ≠ .lineEnd → Shape token.kind token.lexeme.toList) →
        ofLine (layout tokens) = .ok (tokens.filter (·.kind ≠ .lineEnd) ++ [lineEnd]) :=
    fun tokens shaped => scan_of_spread (spread_layout shaped)
  refine ⟨whole, fun line tokens scanned => ?_⟩
  obtain ⟨words, rfl, spread⟩ := (of_line_iff line tokens).mp scanned
  have shaped := shaped_of_spread spread
  have noEnd : words.filter (·.kind ≠ .lineEnd) = words :=
    List.filter_eq_self.mpr fun word member => by simpa using shape_not_end (shaped word member)
  have again := whole (words ++ [lineEnd]) (by
    refine List.forall_mem_append.mpr ⟨fun word member _ => shaped word member, ?_⟩
    simp [lineEnd])
  have dropped : [lineEnd].filter (·.kind ≠ .lineEnd) = [] := rfl
  rw [again, List.filter_append, noEnd, dropped, List.append_nil]

theorem carets_and_words_read_back :
    let words : List Token := [⟨.bracketOpen, "("⟩, ⟨.identifier, "f"⟩, ⟨.bracketOpen, "("⟩,
      ⟨.caret, "^"⟩, ⟨.caret, "^"⟩, ⟨.number, "1.5"⟩, ⟨.number, "2"⟩, ⟨.identifier, "x1"⟩,
      ⟨.identifier, "y"⟩, ⟨.bracketClose, ")"⟩]
    let tokens := words.take 3 ++ lineEnd :: words.drop 3
    layout tokens = "(f(^^1.5 2 x1 y)" ∧ ofLine (layout tokens) = .ok (words ++ [lineEnd]) ∧
      ofLine "(f (^ ^ 1.5 2 x1y )" = .ok (words ++ [lineEnd]) ∧
      ofLine (layout (words ++ [lineEnd])) = .ok (words ++ [lineEnd]) := by
  intro words tokens
  have scanned : ofLine "(f (^ ^ 1.5 2 x1y )" = .ok (words ++ [lineEnd]) := by decide +kernel
  have shaped : ∀ token ∈ tokens, token.kind ≠ .lineEnd →
      Shape token.kind token.lexeme.toList := by
    intro token member kind
    have listed : token ∈ words := by
      rcases List.mem_append.mp member with front | back
      · exact List.mem_of_mem_take front
      · rcases List.mem_cons.mp back with rfl | back
        · exact absurd rfl kind
        · exact List.mem_of_mem_drop back
    rcases shaped_of_line scanned token (List.mem_append_left _ listed) with rfl | shape
    · exact absurd rfl kind
    · exact shape
  obtain ⟨anyOrder, lines⟩ := layout_read_back
  exact ⟨by decide +kernel, anyOrder tokens shaped, scanned, lines _ _ scanned⟩

end Token
end Reckoner

import Reckoner.Proofs.Layout

/- The columns of tokens in a layout. A layout is made in passes that carry little across a visible
   character, so what stands before a token can be laid out apart from what follows, but for the
   blanks on both sides of a caret. -/
namespace Reckoner
open Text

/-- The column of the visible character that has this many others before it. -/
def column? (count : Nat) : List Char → Option Nat
  | [] => none
  | c :: cs =>
    if isBlank c then (column? count cs).map (· + 1)
    else if count = 0 then some 0
    else (column? (count - 1) cs).map (· + 1)

def visible (cs : List Char) : Nat := cs.countP (!isBlank ·)

theorem visible_append (cs ds : List Char) : visible (cs ++ ds) = visible cs + visible ds := by
  simp [visible]

theorem visible_space : visible [' '] = 0 := by
  decide

theorem visible_all {cs : List Char} (shown : ∀ c ∈ cs, isBlank c = false) :
    visible cs = cs.length := by
  rw [visible, List.countP_eq_length]
  intro c member
  simp [shown c member]

theorem column_behind (front : List Char) {c : Char} (shown : isBlank c = false)
    (back : List Char) : column? (visible front) (front ++ c :: back) = some front.length := by
  induction front with
  | nil => simp [column?, visible, shown]
  | cons d front ih =>
    by_cases blank : isBlank d
    · have same : visible (d :: front) = visible front := by simp [visible, blank]
      rw [same, List.cons_append, column?, if_pos blank, ih]
      rfl
    · have more : visible (d :: front) = visible front + 1 := by simp [visible, blank]
      rw [more, List.cons_append, column?, if_neg blank]
      simp [ih]

theorem visible_thinned {left : Option Char} {cs ds : List Char} (thinned : Thinned left cs ds) :
    visible ds = visible cs := by
  induction thinned with
  | done => rfl
  | blank blank _ ih => simpa [visible, blank] using ih
  | visible shown _ ih => simpa [visible, shown] using ih
  | drop blank _ _ ih => simpa [visible, blank] using ih

namespace Layout

section Passes

variable {cs : List Char} {last : Char}

theorem last_of_cons {c : Char} (ends : (c :: cs).getLast? = some last) :
    cs = [] ∧ c = last ∨ cs.getLast? = some last := by
  cases cs with
  | nil => exact .inl ⟨rfl, Option.some.inj ends⟩
  | cons d cs => exact .inr ends

theorem tighten_append (left : Option Char) (held behind : List Char)
    (ends : cs.getLast? = some last) (shown : isBlank last = false) :
    tighten left held (cs ++ behind) = tighten left held cs ++ tighten (some last) [] behind := by
  fun_induction tighten left held cs with
  | case1 => cases ends
  | case2 => cases ends
  | case3 left held c cs blank ih =>
    rcases last_of_cons ends with ⟨_, rfl⟩ | further
    · rw [shown] at blank
      contradiction
    · rw [List.cons_append, tighten, if_pos blank, ih further]
  | case4 left held c cs seen ih =>
    rw [List.cons_append, tighten, if_neg seen, List.append_assoc, List.cons_append]
    rcases last_of_cons ends with ⟨rfl, rfl⟩ | further
    · simp [tighten]
    · rw [ih further]

theorem tighten_last (left : Option Char) (held : List Char) (ends : cs.getLast? = some last)
    (shown : isBlank last = false) : (tighten left held cs).getLast? = some last := by
  fun_induction tighten left held cs with
  | case1 => cases ends
  | case2 => cases ends
  | case3 left held c cs blank ih =>
    rcases last_of_cons ends with ⟨_, rfl⟩ | further
    · rw [shown] at blank
      contradiction
    · exact ih further
  | case4 left held c cs seen ih =>
    rw [List.getLast?_append, List.getLast?_cons]
    rcases last_of_cons ends with ⟨rfl, rfl⟩ | further
    · simp [tighten]
    · rw [ih further]
      rfl

theorem first_of_append (behind : List Char) (ends : cs.getLast? = some last) :
    (cs ++ behind).head? = cs.head? := by
  cases cs with
  | nil => cases ends
  | cons c cs => rfl

theorem join_carets_append (passing : Bool) (held behind : List Char)
    (ends : cs.getLast? = some last) (shown : isBlank last = false) (plain : last ≠ '^') :
    joinCarets passing held (cs ++ behind) =
      joinCarets passing held cs ++ joinCarets false [] behind := by
  fun_induction joinCarets passing held cs with
  | case1 => cases ends
  | case2 => cases ends
  | case3 passing held c cs blank ih =>
    rcases last_of_cons ends with ⟨_, rfl⟩ | further
    · rw [shown] at blank
      contradiction
    · rw [List.cons_append, joinCarets, if_pos blank, ih further]
  | case4 held c cs seen ih =>
    rw [List.cons_append, joinCarets, if_neg seen, if_pos rfl, List.cons_append]
    rcases last_of_cons ends with ⟨rfl, rfl⟩ | further
    · simp [joinCarets]
    · rw [ih further]
  | case5 passing held c cs seen free found ih =>
    obtain ⟨rfl, apart, next⟩ := found
    rcases last_of_cons ends with ⟨rfl, rfl⟩ | further
    · exact absurd rfl plain
    · have same := first_of_append behind further
      rw [List.cons_append, joinCarets, if_neg seen, if_neg free, same,
        if_pos ⟨rfl, apart, next⟩, ih further]
      rfl
  | case6 passing held c cs seen free other ih =>
    rcases last_of_cons ends with ⟨rfl, rfl⟩ | further
    · have ordinary : ¬ (c = '^' ∧ held ≠ [] ∧ (List.head? behind).any isBlank) :=
        fun found => plain found.1
      have here : joinCarets passing held (c :: behind) =
          held.reverse ++ c :: joinCarets false [] behind := by
        rw [joinCarets, if_neg seen, if_neg free, if_neg ordinary]
      simp [here, joinCarets]
    · have same := first_of_append behind further
      rw [List.cons_append, joinCarets, if_neg seen, if_neg free, same, if_neg other,
        ih further, List.append_assoc]
      rfl

end Passes

section Words

def lined (words : List Token) : List Char :=
  List.intercalate [' '] (words.map (·.lexeme.toList))

def behind (words : List Token) : List Char :=
  words.flatMap fun word => ' ' :: word.lexeme.toList

theorem behind_cons (word : Token) (words : List Token) :
    behind (word :: words) = ' ' :: (word.lexeme.toList ++ behind words) :=
  List.flatMap_cons

theorem lined_cons (word : Token) (words : List Token) :
    lined (word :: words) = word.lexeme.toList ++ behind words := by
  induction words generalizing word with
  | nil => simp [lined, behind]
  | cons next words ih =>
    have further : lined (word :: next :: words) =
        word.lexeme.toList ++ ' ' :: lined (next :: words) := by
      simp [lined, List.intercalate_cons_cons]
    rw [further, ih, behind_cons]

theorem lined_append {xs : List Token} (some : xs ≠ []) (ys : List Token) :
    lined (xs ++ ys) = lined xs ++ behind ys := by
  cases xs with
  | nil => contradiction
  | cons x xs => rw [List.cons_append, lined_cons, lined_cons, behind, List.flatMap_append,
      List.append_assoc, behind, behind]

theorem lined_last (xs : List Token) {word : Token} {last : Char}
    (ends : word.lexeme.toList.getLast? = some last) :
    (lined (xs ++ [word])).getLast? = some last := by
  by_cases empty : xs = []
  · simpa [empty, lined] using ends
  · rw [lined_append empty, behind_cons, List.getLast?_append, List.getLast?_cons,
      List.getLast?_append, ends]
    simp [behind]

theorem visible_behind {words : List Token}
    (shapes : ∀ word ∈ words, Shape word.kind word.lexeme.toList) :
    visible (behind words) = (words.flatMap (·.lexeme.toList)).length := by
  induction words with
  | nil => rfl
  | cons word words ih =>
    obtain ⟨shape, others⟩ := List.forall_mem_cons.mp shapes
    rw [behind_cons, ← List.singleton_append, visible_append, visible_append, visible_space,
      visible_all (shape_visible shape), ih others, List.flatMap_cons, List.length_append,
      Nat.zero_add]

theorem visible_lined {words : List Token}
    (shapes : ∀ word ∈ words, Shape word.kind word.lexeme.toList) :
    visible (lined words) = (words.flatMap (·.lexeme.toList)).length := by
  rw [← visible_behind shapes]
  cases words with
  | nil => rfl
  | cons word words =>
    rw [lined_cons, behind_cons, ← List.singleton_append, visible_append [' '], visible_space,
      Nat.zero_add]

theorem kind_of_mem {kind sign : Kind} {text : List Char} {c : Char} (shape : Shape kind text)
    (member : c ∈ text) (known : sign.symbol? = some c) : kind = sign := by
  obtain ⟨digit, letter, _, point, found⟩ := Lexeme.symbol_spec known
  rcases shape_characters shape c member with isDigit | isLetter | isPoint | own
  · rw [digit] at isDigit
    contradiction
  · rw [letter] at isLetter
    contradiction
  · exact absurd isPoint point
  · obtain ⟨_, _, _, _, same⟩ := Lexeme.symbol_spec own
    exact Option.some.inj (same.symm.trans found)

theorem shape_symbol {sign : Kind} {text : List Char} {c : Char} (shape : Shape sign text)
    (known : sign.symbol? = some c) : text = [c] := by
  cases shape with
  | whole => cases known
  | fraction => cases known
  | identifier => cases known
  | symbol own => rw [Option.some.inj (own.symm.trans known)]

theorem caret_of_mem {kind : Kind} {text : List Char} (shape : Shape kind text)
    (member : '^' ∈ text) : kind = .caret :=
  kind_of_mem shape member rfl

theorem shape_caret {text : List Char} (shape : Shape .caret text) : text = ['^'] :=
  shape_symbol shape rfl

theorem shape_last {kind : Kind} {text : List Char} (shape : Shape kind text) :
    ∃ last, text.getLast? = some last := by
  obtain ⟨c, cs, eq, _⟩ := shape_starts shape
  have some : text ≠ [] := by simp [eq]
  exact ⟨_, List.getLast?_eq_some_getLast some⟩

end Words

section Around

def touch (left right : Token) : Bool :=
  tight left.lexeme.toList.getLast? right.lexeme.toList.head?

def laid (words : List Token) : List Char :=
  joinCarets false [] (tighten none [] (lined words))

theorem laid_layout {words : List Token} (inner : ∀ word ∈ words, word.kind ≠ .lineEnd) :
    (Token.layout words).toList = laid words ∧
      (Token.layout (words ++ [Token.lineEnd])).toList = laid words := by
  have all : words.filter (·.kind ≠ .lineEnd) = words :=
    List.filter_eq_self.mpr fun word member => by simpa using inner word member
  have none : [Token.lineEnd].filter (·.kind ≠ .lineEnd) = [] := rfl
  rw [Token.layout, Token.layout, String.toList_ofList, String.toList_ofList, spaced, spaced,
    List.filter_append, all, none, List.append_nil]
  exact ⟨rfl, rfl⟩

theorem visible_laid {words : List Token}
    (shapes : ∀ word ∈ words, Shape word.kind word.lexeme.toList) :
    visible (laid words) = (words.flatMap (·.lexeme.toList)).length := by
  have tightened := thinned_tighten none [] (lined words) (List.forall_mem_nil _)
  have joined := thinned_join_carets none false [] (tighten none [] (lined words))
    (List.forall_mem_nil _) (by simp)
  rw [← visible_lined shapes]
  exact (visible_thinned joined).trans (visible_thinned tightened)

variable {c : Char} (shown : isBlank c = false)
include shown

theorem tighten_gap (left : Option Char) (cs : List Char) :
    tighten left [] (' ' :: c :: cs) =
      (if tight left (some c) then [] else [' ']) ++ c :: tighten (some c) [] cs := by
  have blank : isBlank ' ' = true := by decide
  have seen : ¬ isBlank c = true := by simp [shown]
  rw [tighten, if_pos blank, tighten, if_neg seen]
  rfl

theorem join_carets_touching (cs : List Char) :
    ∃ back, joinCarets false [] (c :: cs) = c :: back := by
  have seen : ¬ isBlank c = true := by simp [shown]
  rw [joinCarets, if_neg seen]
  simp

theorem join_carets_gap (cs : List Char) :
    ∃ back, joinCarets false [] (' ' :: c :: cs) =
      (if c = '^' ∧ cs.head?.any isBlank then [] else [' ']) ++ c :: back := by
  have blank : isBlank ' ' = true := by decide
  have seen : ¬ isBlank c = true := by simp [shown]
  rw [joinCarets, if_pos blank, joinCarets, if_neg seen]
  by_cases caret : c = '^' ∧ cs.head?.any isBlank
  · simp [caret]
  · have other : ¬ (c = '^' ∧ [' '] ≠ [] ∧ cs.head?.any isBlank) :=
      fun found => caret ⟨found.1, found.2.2⟩
    rw [if_neg caret, if_neg other]
    exact ⟨_, rfl⟩

theorem join_carets_behind (close : Bool) (cs : List Char) :
    ∃ back, joinCarets false [] (' ' :: '^' :: ((if close then [] else [' ']) ++ c :: cs)) =
      (if close then [' ', '^'] else ['^']) ++ c :: back := by
  have white : isBlank ' ' = true := by decide
  have caret : isBlank '^' = false := by decide
  cases close <;> simp [joinCarets, white, caret, shown]

end Around

section Starts

variable {more : List Token} {before here : Token}

theorem blank_behind_caret {c : Char} {cs : List Char}
    (shape : Shape here.kind here.lexeme.toList) (text : here.lexeme.toList = c :: cs)
    (later : ∀ word ∈ more, Shape word.kind word.lexeme.toList) :
    (c = '^' ∧ (tighten (some c) [] (cs ++ behind more)).head?.any isBlank) ↔
      here.kind = .caret ∧ more.head?.any (!touch here ·) := by
  by_cases caret : here.kind = .caret
  · rw [caret] at shape
    have sign := shape_caret shape
    rw [text] at sign
    cases sign
    cases more with
    | nil => simp [behind, tighten]
    | cons next more =>
      obtain ⟨d, ds, first, seen, _⟩ := shape_starts (later next List.mem_cons_self)
      have apart : touch here next = tight (some '^') (some d) := by
        rw [touch, text, first]
        rfl
      rw [behind_cons, first, List.nil_append, List.cons_append, tighten_gap seen]
      cases close : tight (some '^') (some d) with
      | true => simp [apart, close, seen]
      | false =>
        have white : isBlank ' ' = true := by decide
        simp [apart, close, caret, white]
  · have other : c ≠ '^' := by
      rintro rfl
      exact caret (caret_of_mem shape (by simp [text]))
    simp [caret, other]

theorem laid_append (ys rest : List Token) {last : Char}
    (shape : Shape before.kind before.lexeme.toList) (plain : before.kind ≠ .caret)
    (ends : before.lexeme.toList.getLast? = some last) :
    laid (ys ++ [before] ++ rest) =
      laid (ys ++ [before]) ++ joinCarets false [] (tighten (some last) [] (behind rest)) := by
  have member := List.mem_of_getLast? ends
  have shown := shape_visible shape last member
  have ordinary : last ≠ '^' := by
    rintro rfl
    exact plain (caret_of_mem shape member)
  have front := lined_last ys ends
  have tightened := tighten_last none [] front shown
  rw [laid, lined_append (by simp), tighten_append none [] _ front shown,
    join_carets_append false [] _ tightened shown ordinary, laid]

theorem column_behind_plain (ys : List Token) (shape : Shape before.kind before.lexeme.toList)
    (plain : before.kind ≠ .caret) (next : Shape here.kind here.lexeme.toList)
    (later : ∀ word ∈ more, Shape word.kind word.lexeme.toList) :
    ∃ start, column? (visible (laid (ys ++ [before]))) (laid (ys ++ [before] ++ here :: more)) =
        some start ∧
      (laid (ys ++ [before])).length + 1 = start +
        if touch before here ∨ here.kind = .caret ∧ more.head?.any (!touch here ·) then 1
        else 0 := by
  obtain ⟨last, ends⟩ := shape_last shape
  obtain ⟨c, cs, text, seen, _⟩ := shape_starts next
  have touching : touch before here = tight (some last) (some c) := by
    rw [touch, ends, text]
    rfl
  have joins := blank_behind_caret next text later
  rw [laid_append ys _ shape plain ends, behind_cons, text, List.cons_append, tighten_gap seen,
    ← touching]
  cases close : touch before here with
  | true =>
    obtain ⟨back, eq⟩ := join_carets_touching seen (tighten (some c) [] (cs ++ behind more))
    rw [if_pos rfl, List.nil_append, eq]
    exact ⟨_, column_behind _ seen back, by simp⟩
  | false =>
    obtain ⟨back, eq⟩ := join_carets_gap seen (tighten (some c) [] (cs ++ behind more))
    rw [if_neg Bool.false_ne_true, List.singleton_append, eq]
    -- the caret takes the blank before it away only if one stands behind it as well
    by_cases joined : here.kind = .caret ∧ more.head?.any (!touch here ·)
    · rw [if_pos (joins.mpr joined), List.nil_append]
      exact ⟨_, column_behind _ seen back, by simp [joined]⟩
    · have same : visible (laid (ys ++ [before]) ++ [' ']) = visible (laid (ys ++ [before])) := by
        rw [visible_append, visible_space, Nat.add_zero]
      rw [if_neg (mt joins.mp joined), ← List.append_assoc, ← same]
      exact ⟨_, column_behind _ seen back, by simp [joined]⟩

/-- Behind a caret the next token starts at once, and the caret itself moves up to the operand
before it if the two do not touch. -/
theorem column_behind_caret (ys more : List Token) {operand : Token}
    (shape : Shape operand.kind operand.lexeme.toList) (plain : operand.kind ≠ .caret)
    (apart : touch operand before = false) (caret : Shape before.kind before.lexeme.toList)
    (isCaret : before.kind = .caret) (next : Shape here.kind here.lexeme.toList) :
    ∃ start, column? (visible (laid (ys ++ [operand, before])))
        (laid (ys ++ [operand, before] ++ here :: more)) = some start ∧
      (laid (ys ++ [operand, before])).length + 1 =
        start + if touch before here then 1 else 2 := by
  obtain ⟨last, ends⟩ := shape_last shape
  rw [isCaret] at caret
  have sign := shape_caret caret
  obtain ⟨c, cs, text, seen, _⟩ := shape_starts next
  have white : isBlank '^' = false := by decide
  have away : tight (some last) (some '^') = false := by
    rw [← apart, touch, ends, sign]
    rfl
  have touching : touch before here = tight (some '^') (some c) := by
    rw [touch, sign, text]
    rfl
  -- all that stands behind the operand, be it the caret alone or more tokens
  have whole : ∀ rest, laid (ys ++ [operand] ++ before :: rest) = laid (ys ++ [operand]) ++
      joinCarets false [] (' ' :: '^' :: tighten (some '^') [] (behind rest)) := by
    intro rest
    rw [laid_append ys _ shape plain ends, behind_cons, sign, List.singleton_append,
      tighten_gap white, away]
    rfl
  have alone : laid (ys ++ [operand, before]) = laid (ys ++ [operand]) ++ [' ', '^'] := by
    rw [List.append_cons, whole []]
    rfl
  have both : ys ++ [operand, before] ++ here :: more =
      ys ++ [operand] ++ before :: here :: more := by simp
  obtain ⟨back, eq⟩ :=
    join_carets_behind seen (touch before here) (tighten (some c) [] (cs ++ behind more))
  rw [alone, both, whole, behind_cons, text, List.cons_append, tighten_gap seen, ← touching, eq,
    ← List.append_assoc]
  cases touch before here with
  | true => exact ⟨_, column_behind _ seen back, rfl⟩
  | false =>
    have same : visible (laid (ys ++ [operand]) ++ [' ', '^']) =
        visible (laid (ys ++ [operand]) ++ ['^']) := by
      rw [visible_append, visible_append]
      rfl
    rw [same]
    exact ⟨_, column_behind _ seen back, by simp⟩

end Starts

end Layout
end Reckoner

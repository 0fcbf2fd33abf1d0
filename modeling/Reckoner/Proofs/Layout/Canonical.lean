import Reckoner.Proofs.Caret

/- The layout of a line that is an expression or an assignment: one blank between neighbours, and
   none inside of brackets, between a function and the bracket of its argument, and around a caret.
   The passes that make a layout drop blanks by the characters beside them. In such a line these
   tell the tokens apart that the blanks are dropped for. -/
namespace Reckoner
open Grammar Layout Text Token

namespace Layout

/-- Neighbours without a blank between them. An identifier before an opening bracket is the name of
a function. -/
def close (left right : Kind) : Bool :=
  left = .bracketOpen || right = .bracketClose || (left = .identifier && right = .bracketOpen) ||
    left = .caret || right = .caret

def canonicalBehind (left : Token) : List Token → List Char
  | [] => []
  | right :: rest =>
    (if close left.kind right.kind then [] else [' ']) ++
      (right.lexeme.toList ++ canonicalBehind right rest)

def canonical : List Token → List Char
  | [] => []
  | first :: rest => first.lexeme.toList ++ canonicalBehind first rest

end Layout

section Neighbours

/-- Behind a caret an operand starts, and before an opening bracket a name is one of a function. -/
def Leads (left right : Token) : Prop :=
  (left.kind = .caret → Starts right.kind) ∧
    (left.kind = .identifier → right.kind = .bracketOpen → OnlyLetters left.lexeme)

theorem leads_plain {left : Token} (plain : left.kind ≠ .caret ∧ left.kind ≠ .identifier)
    (right : Token) : Leads left right :=
  ⟨fun kind => absurd kind plain.1, fun kind => absurd kind plain.2⟩

theorem leads_complete {xs : List Token} (complete : Complete xs) {right : Token}
    (other : right.kind ≠ .bracketOpen) : ∀ left ∈ xs.getLast?, Leads left right := by
  intro left found
  obtain ⟨last, same, kind⟩ := complete
  obtain rfl := Option.some.inj (found.symm.trans same)
  refine ⟨fun isCaret => ?_, fun _ opening => absurd opening other⟩
  rcases kind with kind | kind | kind <;> cases isCaret.symm.trans kind

theorem leads_enclosed {opening closing : Token} {xs : List Token}
    (first : opening.kind = .bracketOpen) (last : closing.kind = .bracketClose)
    (complete : Complete xs) (leads : xs.IsChain Leads) :
    (opening :: (xs ++ [closing])).IsChain Leads := by
  refine List.isChain_cons.mpr ⟨fun next _ => leads_plain (by simp [first]) next, ?_⟩
  refine List.isChain_append.mpr ⟨leads, .singleton _, fun left found right here => ?_⟩
  cases here
  exact leads_complete complete (by simp [last]) left found

theorem leads_joint {chain phrase : Phrase} {token : Token} {op : Op} {ys : List Token}
    {tree : Tree} (operands : Operands chain phrase) (joint : Joint chain token.kind op)
    (derives : Derives phrase ys tree) : ∀ next ∈ ys.head?, Leads token next := by
  intro next found
  have word := joint_not_word joint
  refine ⟨fun _ => ?_, fun name => absurd (.inr name) word⟩
  obtain ⟨first, rest, rfl, starts | ⟨expression, _⟩⟩ := derives_starts derives
  · cases found
    exact starts
  · cases operands <;> cases expression

theorem derives_leads {phrase : Phrase} {xs : List Token} {tree : Tree}
    (derives : Derives phrase xs tree) : xs.IsChain Leads := by
  induction derives with
  | unsigned _ ih => exact ih
  | @signed token _ _ _ sign _ ih =>
    refine List.isChain_cons.mpr ⟨fun next _ => leads_plain ?_ next, ih⟩
    generalize token.kind = kind at sign
    cases sign <;> simp
  | single _ _ ih => exact ih
  | @joined _ _ token _ _ _ _ _ operands before joint last left right =>
    refine List.isChain_append.mpr ⟨left, ?_, fun operand found next here => ?_⟩
    · exact List.isChain_cons.mpr ⟨leads_joint operands joint last, right⟩
    · cases here
      exact leads_complete (derives_complete before) (joint_kind joint).2.1 operand found
  | number => exact .singleton _
  | name => exact .singleton _
  | @call lexeme opening closing xs _ letters first last argument ih =>
    refine List.isChain_cons.mpr ⟨fun next found => ?_,
      leads_enclosed first last (derives_complete argument) ih⟩
    cases found
    exact ⟨by simp, fun _ _ => letters⟩
  | bracketed first last inside ih => exact leads_enclosed first last (derives_complete inside) ih

theorem statement_leads {xs : List Token} {tree : Tree} (statement : Statement xs tree) :
    xs.IsChain Leads := by
  cases statement with
  | expression derives => exact derives_leads derives
  | @assignment lexeme equal xs _ sign derives =>
    refine List.isChain_cons.mpr ⟨fun next found => ?_, List.isChain_cons.mpr
      ⟨fun next _ => leads_plain (by simp [sign]) next, derives_leads derives⟩⟩
    cases found
    exact ⟨by simp, by simp [sign]⟩

end Neighbours

namespace Layout

section Touching

variable {kind : Kind} {text : List Char} {c : Char}

theorem identifier_of_letter (shape : Shape kind text) (member : c ∈ text) (letter : c.isAlpha) :
    kind = .identifier := by
  have digit := Lexeme.letter_not_digit letter
  cases shape with
  | whole _ all =>
    rw [all c member] at digit
    contradiction
  | fraction _ _ allWhole all =>
    rcases List.mem_append.mp member with front | back
    · rw [allWhole c front] at digit
      contradiction
    · rcases List.mem_cons.mp back with rfl | back
      · exact absurd letter (by decide)
      · rw [all c back] at digit
        contradiction
  | identifier => rfl
  | symbol known =>
    cases List.mem_singleton.mp member
    rw [(Lexeme.symbol_spec known).2.1] at letter
    contradiction

theorem last_sign_iff {sign : Kind} (shape : Shape kind text) (known : sign.symbol? = some c) :
    text.getLast? = some c ↔ kind = sign := by
  constructor
  · exact fun ends => kind_of_mem shape (List.mem_of_getLast? ends) known
  · rintro rfl
    rw [shape_symbol shape known]
    rfl

theorem first_sign_iff {sign : Kind} (shape : Shape kind text) (known : sign.symbol? = some c) :
    text.head? = some c ↔ kind = sign := by
  constructor
  · exact fun starts => kind_of_mem shape (List.mem_of_mem_head? starts) known
  · rintro rfl
    rw [shape_symbol shape known]
    rfl

/-- Of neighbours in a line the characters that touch tell the kinds. -/
theorem touch_iff {left right : Token} (leftShape : Shape left.kind left.lexeme.toList)
    (rightShape : Shape right.kind right.lexeme.toList) (leads : Leads left right) :
    touch left right ↔ left.kind = .bracketOpen ∨ right.kind = .bracketClose ∨
      left.kind = .identifier ∧ right.kind = .bracketOpen := by
  have opens : left.lexeme.toList.getLast? = some '(' ↔ left.kind = .bracketOpen :=
    last_sign_iff leftShape rfl
  have closes : right.lexeme.toList.head? = some ')' ↔ right.kind = .bracketClose :=
    first_sign_iff rightShape rfl
  have starts : right.lexeme.toList.head? = some '(' ↔ right.kind = .bracketOpen :=
    first_sign_iff rightShape rfl
  have named : right.kind = .bracketOpen →
      (left.lexeme.toList.getLast?.any Char.isAlpha ↔ left.kind = .identifier) := by
    intro opening
    obtain ⟨last, ends⟩ := shape_last leftShape
    have member := List.mem_of_getLast? ends
    rw [ends, Option.any_some]
    exact ⟨identifier_of_letter leftShape member,
      fun name => (leads.2 name opening).2 last member⟩
  simp only [touch, tight, Bool.or_eq_true, Bool.and_eq_true, decide_eq_true_eq, opens, closes,
    starts, or_assoc, and_congr_left named]

theorem close_iff {left right : Token} (leftShape : Shape left.kind left.lexeme.toList)
    (rightShape : Shape right.kind right.lexeme.toList) (leads : Leads left right) :
    close left.kind right.kind ↔
      touch left right ∨ left.kind = .caret ∨ right.kind = .caret := by
  simp only [touch_iff leftShape rightShape leads, close, Bool.or_eq_true, Bool.and_eq_true,
    decide_eq_true_eq, or_assoc]

end Touching

section Passes

variable {text : List Char}

theorem tighten_shown (shown : ∀ c ∈ text, isBlank c = false) (left : Option Char) :
    tighten left [] text = text := by
  induction text generalizing left with
  | nil => simp [tighten]
  | cons c text ih =>
    obtain ⟨first, rest⟩ := List.forall_mem_cons.mp shown
    simp [tighten, first, ih rest]

theorem join_carets_shown (shown : ∀ c ∈ text, isBlank c = false) :
    joinCarets false [] text = text := by
  induction text with
  | nil => rfl
  | cons c text ih =>
    obtain ⟨first, rest⟩ := List.forall_mem_cons.mp shown
    simp [joinCarets, first, ih rest]

theorem tighten_behind {left right : Token} {last next : Char}
    (shape : Shape right.kind right.lexeme.toList)
    (ends : left.lexeme.toList.getLast? = some last)
    (nextEnds : right.lexeme.toList.getLast? = some next) (rest : List Token) :
    tighten (some last) [] (behind (right :: rest)) =
      (if touch left right then [] else [' ']) ++
        (right.lexeme.toList ++ tighten (some next) [] (behind rest)) := by
  obtain ⟨c, cs, text, seen, _⟩ := shape_starts shape
  have shown := shape_visible shape
  have touching : touch left right = tight (some last) (some c) := by
    rw [touch, ends, text]
    rfl
  have whole := tighten_append none [] (behind rest) nextEnds
    (shown next (List.mem_of_getLast? nextEnds))
  rw [tighten_shown shown, text, List.cons_append, List.cons_append, tighten,
    if_neg (by simp [seen]), List.reverse_nil, ite_self, List.nil_append] at whole
  rw [behind_cons, text, List.cons_append, tighten_gap seen, ← touching, whole, List.cons_append]

theorem join_carets_word (passing close : Bool) {last : Char} (ends : text.getLast? = some last)
    (shown : ∀ c ∈ text, isBlank c = false) (plain : '^' ∉ text) (more : List Char) :
    joinCarets passing [] ((if close then [] else [' ']) ++ (text ++ more)) =
      (if close || passing then [] else [' ']) ++ (text ++ joinCarets false [] more) := by
  have member := List.mem_of_getLast? ends
  have ordinary : last ≠ '^' := ne_of_mem_of_not_mem member plain
  have whole := join_carets_append false [] more ends (shown last member) ordinary
  rw [join_carets_shown shown] at whole
  obtain ⟨c, cs, rfl⟩ := List.exists_cons_of_ne_nil (List.ne_nil_of_mem member)
  have seen := shown c List.mem_cons_self
  have other : c ≠ '^' := ne_of_mem_of_not_mem List.mem_cons_self plain
  have white : isBlank ' ' = true := by decide
  cases passing <;> cases close <;> simp_all [joinCarets]

theorem join_carets_sign {more : List Char} (blank : more.head?.any isBlank) :
    joinCarets false [] (' ' :: '^' :: more) = '^' :: joinCarets true [] more := by
  have white : isBlank ' ' = true := by decide
  have caret : isBlank '^' = false := by decide
  simp [joinCarets, white, caret, blank]

theorem blank_behind_sign {sign : Token} {rest : List Token} {last : Char}
    (shapes : ∀ word ∈ sign :: rest, Shape word.kind word.lexeme.toList)
    (leads : (sign :: rest).IsChain Leads) (complete : Complete (sign :: rest))
    (caret : sign.kind = .caret) (ends : sign.lexeme.toList.getLast? = some last) :
    (tighten (some last) [] (behind rest)).head?.any isBlank := by
  cases rest with
  | nil =>
    obtain ⟨other, found, kind⟩ := complete
    cases found
    rcases kind with kind | kind | kind <;> cases caret.symm.trans kind
  | cons next rest =>
    obtain ⟨shape, others⟩ := List.forall_mem_cons.mp shapes
    have nextShape := others next List.mem_cons_self
    have leading := (List.isChain_cons_cons.mp leads).1
    obtain ⟨nextLast, nextEnds⟩ := shape_last nextShape
    have free : touch sign next = false := by
      rw [Bool.eq_false_iff, Ne, touch_iff shape nextShape leading]
      rcases leading.1 caret with kind | kind | kind <;> simp [caret, kind]
    rw [tighten_behind nextShape ends nextEnds, free]
    rfl

theorem laid_behind {left : Token} {rest : List Token} {last : Char}
    (shapes : ∀ word ∈ left :: rest, Shape word.kind word.lexeme.toList)
    (joins : (left :: rest).IsChain Joins) (leads : (left :: rest).IsChain Leads)
    (complete : Complete (left :: rest)) (ends : left.lexeme.toList.getLast? = some last) :
    joinCarets (left.kind = .caret) [] (tighten (some last) [] (behind rest)) =
      canonicalBehind left rest := by
  induction rest generalizing left last with
  | nil =>
    rw [behind, List.flatMap_nil, tighten, List.reverse_nil, ite_self, joinCarets,
      List.reverse_nil, ite_self, canonicalBehind]
  | cons right rest ih =>
    obtain ⟨shape, others⟩ := List.forall_mem_cons.mp shapes
    obtain ⟨next, later⟩ := List.forall_mem_cons.mp others
    obtain ⟨joined, joins⟩ := List.isChain_cons_cons.mp joins
    obtain ⟨leading, leads⟩ := List.isChain_cons_cons.mp leads
    obtain ⟨nextLast, nextEnds⟩ := shape_last next
    have whole : Complete (right :: rest) := complete
    have behindNext := ih others joins leads whole nextEnds
    have apart := close_iff shape next leading
    rw [tighten_behind next ends nextEnds, canonicalBehind]
    by_cases caret : right.kind = .caret
    · -- both blanks around a caret stay until it is met, as neither neighbour touches it
      have sign : right.lexeme.toList = ['^'] := shape_caret (caret ▸ next)
      have free : touch left right = false := operand_apart shape (joined caret) sign
      have plain : left.kind ≠ .caret := by
        rcases joined caret with kind | kind | kind <;> simp [kind]
      have blank := blank_behind_sign others leads whole caret nextEnds
      rw [free, sign, decide_eq_false plain, if_neg Bool.false_ne_true, List.singleton_append,
        List.singleton_append, join_carets_sign blank, if_pos (apart.mpr (.inr (.inr caret))),
        ← behindNext, decide_eq_true caret]
      rfl
    · have same : close left.kind right.kind =
          (touch left right || decide (left.kind = .caret)) := by
        rw [Bool.eq_iff_iff, apart]
        simp [caret]
      rw [join_carets_word _ _ nextEnds (shape_visible next) (mt (caret_of_mem next) caret), same,
        ← behindNext, decide_eq_false caret]

theorem laid_canonical {words : List Token}
    (shapes : ∀ word ∈ words, Shape word.kind word.lexeme.toList) {tree : Tree}
    (statement : Statement words tree) : laid words = canonical words := by
  obtain ⟨joins, plain⟩ := statement_joins statement
  have leads := statement_leads statement
  have complete := (statement_complete_balanced statement).1
  cases words with
  | nil => rfl
  | cons first rest =>
    have shape := shapes first List.mem_cons_self
    have shown := shape_visible shape
    obtain ⟨last, ends⟩ := shape_last shape
    have other : first.kind ≠ .caret := plain first rfl
    have alone : laid [first] = first.lexeme.toList := by
      rw [laid, lined_cons, behind, List.flatMap_nil, List.append_nil, tighten_shown shown,
        join_carets_shown shown]
    have whole := laid_append [] rest shape other ends
    have after := laid_behind shapes joins leads complete ends
    rw [decide_eq_false other] at after
    rwa [List.nil_append, List.singleton_append, alone, after] at whole

end Passes

section Ends

variable {first : Token} {rest : List Token}
  (shapes : ∀ word ∈ first :: rest, Shape word.kind word.lexeme.toList)
include shapes

theorem canonical_first : ∀ c ∈ (canonical (first :: rest)).head?, isBlank c = false := by
  obtain ⟨d, ds, text, seen, _⟩ := shape_starts (shapes first List.mem_cons_self)
  intro c found
  rw [canonical, text] at found
  cases found
  exact seen

theorem canonical_last : ∃ last, (canonical (first :: rest)).getLast? = some last ∧
    isBlank last = false := by
  induction rest generalizing first with
  | nil =>
    have shape := shapes first List.mem_cons_self
    obtain ⟨last, ends⟩ := shape_last shape
    rw [canonical, canonicalBehind, List.append_nil]
    exact ⟨last, ends, shape_visible shape last (List.mem_of_getLast? ends)⟩
  | cons right rest ih =>
    obtain ⟨last, ends, seen⟩ := ih (List.forall_mem_cons.mp shapes).2
    refine ⟨last, ?_, seen⟩
    rw [canonical] at ends
    rw [canonical, canonicalBehind, List.getLast?_append, List.getLast?_append, ends]
    rfl

end Ends

end Layout

namespace Token

/-- A line with a tree is laid out in one way: its lexemes in order, with one blank between
neighbours that are not close and none at either end. Its layout is laid out as it stands. -/
theorem layout_canonical {line : String} {tokens : List Token} {tree : Tree}
    (scanned : ofLine line = .ok tokens) (parsed : Tree.ofTokens tokens = .ok tree) :
    ∃ words, tokens = words ++ [lineEnd] ∧ (∀ word ∈ words, word.kind ≠ .lineEnd) ∧
      (layout tokens).toList = canonical words ∧
      (∀ c ∈ (layout tokens).toList.head?, isBlank c = false) ∧
      (∀ c ∈ (layout tokens).toList.getLast?, isBlank c = false) ∧
      (ofLine (layout tokens)).map layout = .ok (layout tokens) := by
  have derived := (Reader.statement_sound (shaped_of_line scanned) parsed).1
  obtain ⟨words, rfl, spread⟩ := (of_line_iff line tokens).mp scanned
  have shapes := shaped_of_spread spread
  have inner : ∀ word ∈ words, word.kind ≠ .lineEnd := fun word member =>
    shape_not_end (shapes word member)
  rw [body_append inner, body_of_next rfl, List.append_nil] at derived
  obtain ⟨alone, ended⟩ := laid_layout inner
  have text : (layout (words ++ [lineEnd])).toList = canonical words :=
    ended.trans (laid_canonical shapes derived)
  have again : ofLine (layout (words ++ [lineEnd])) = .ok (words ++ [lineEnd]) := by
    have all : words.filter (·.kind ≠ .lineEnd) = words :=
      List.filter_eq_self.mpr fun word member => by simpa using inner word member
    have spread := spread_layout fun word member _ => shapes word member
    rw [all, alone, ← ended] at spread
    exact (of_line_iff _ _).mpr ⟨words, rfl, spread⟩
  refine ⟨words, rfl, inner, text, ?_, ?_, by rw [again]; rfl⟩
  · rw [text]
    cases words with
    | nil => simp [canonical]
    | cons first rest => exact canonical_first shapes
  · rw [text]
    cases words with
    | nil => simp [canonical]
    | cons first rest =>
      obtain ⟨last, ends, seen⟩ := canonical_last shapes
      intro c found
      cases ends.symm.trans found
      exact seen

theorem call_and_powers_canonical :
    let words : List Token := [⟨.identifier, "x"⟩, ⟨.equal, "="⟩, ⟨.identifier, "f"⟩,
      ⟨.bracketOpen, "("⟩, ⟨.number, "2"⟩, ⟨.caret, "^"⟩, ⟨.identifier, "y1"⟩, ⟨.caret, "^"⟩,
      ⟨.bracketOpen, "("⟩, ⟨.minus, "-"⟩, ⟨.number, "3"⟩, ⟨.bracketClose, ")"⟩,
      ⟨.bracketClose, ")"⟩]
    ofLine " x=f  ( 2^y1 ^(-3 ) )" = .ok (words ++ [lineEnd]) ∧
      (∃ tree, Tree.ofTokens (words ++ [lineEnd]) = .ok tree) ∧
      layout (words ++ [lineEnd]) = "x = f(2^y1^(- 3))" ∧
      (layout (words ++ [lineEnd])).toList = canonical words ∧
      ofLine "x = f(2^y1^(- 3))" = .ok (words ++ [lineEnd]) := by
  intro words
  have scanned : ofLine " x=f  ( 2^y1 ^(-3 ) )" = .ok (words ++ [lineEnd]) := by decide +kernel
  obtain ⟨tree, read⟩ : ∃ tree, (Tree.ofTokens (words ++ [lineEnd])).toOption = some tree :=
    Option.isSome_iff_exists.mp (by decide +kernel)
  have parsed := ok_of_toOption read
  obtain ⟨_, same, _, text, _⟩ := layout_canonical scanned parsed
  obtain rfl := List.append_cancel_right same
  exact ⟨scanned, ⟨tree, parsed⟩, by decide +kernel, text, by decide +kernel⟩

end Token
end Reckoner

import Mathlib.Data.List.Chain
import Reckoner.Proofs.Layout.Columns
import Reckoner.Proofs.Reading
import Reckoner.Proofs.Rejection

/- Where the caret below a rejected line stands. It is put one blank behind the layout of the tokens
   before the wrong one. In the layout of the whole line blanks around these tokens may be dropped
   on account of the tokens behind them, and the caret then stands too far to the right. -/
namespace Reckoner
open Grammar Layout Text Token

section Operands

def Joins (left right : Token) : Prop :=
  right.kind = .caret →
    left.kind = .number ∨ left.kind = .identifier ∨ left.kind = .bracketClose

def NoCaretFirst (tokens : List Token) : Prop := ∀ first ∈ tokens.head?, first.kind ≠ .caret

theorem derives_first {phrase : Phrase} {xs : List Token} {tree : Tree}
    (derives : Derives phrase xs tree) : xs ≠ [] ∧ NoCaretFirst xs := by
  obtain ⟨token, rest, rfl, starts | ⟨_, op, sign⟩⟩ := derives_starts derives
  · refine ⟨by simp, fun first found => ?_⟩
    cases found
    rcases starts with kind | kind | kind <;> simp [kind]
  · refine ⟨by simp, fun first found => ?_⟩
    cases found
    generalize token.kind = kind at sign
    cases sign <;> simp

theorem joins_cons (token : Token) {xs : List Token} (first : NoCaretFirst xs)
    (joins : xs.IsChain Joins) : (token :: xs).IsChain Joins :=
  List.isChain_cons.mpr ⟨fun next found isCaret => absurd isCaret (first next found), joins⟩

theorem joins_enclosed {opening closing : Token} {xs : List Token}
    (last : closing.kind = .bracketClose) (inside : xs ≠ [] ∧ NoCaretFirst xs)
    (joins : xs.IsChain Joins) : (opening :: (xs ++ [closing])).IsChain Joins := by
  have first : NoCaretFirst (xs ++ [closing]) := by
    intro next found
    rw [List.head?_append_of_ne_nil _ inside.1] at found
    exact inside.2 next found
  refine joins_cons opening first (List.isChain_append.mpr ⟨joins, .singleton _, ?_⟩)
  intro left _ right found isCaret
  cases found
  rw [last] at isCaret
  cases isCaret

theorem derives_joins {phrase : Phrase} {xs : List Token} {tree : Tree}
    (derives : Derives phrase xs tree) : xs.IsChain Joins := by
  induction derives with
  | unsigned _ ih => exact ih
  | @signed token _ _ _ _ sum ih => exact joins_cons token (derives_first sum).2 ih
  | single _ _ ih => exact ih
  | @joined _ _ token _ _ _ _ _ _ before _ last left right =>
    refine List.isChain_append.mpr ⟨left, joins_cons token (derives_first last).2 right, ?_⟩
    intro operand found _ _ _
    obtain ⟨other, same, kind⟩ := derives_complete before
    cases Option.some.inj (found.symm.trans same)
    exact kind
  | number => exact .singleton _
  | name => exact .singleton _
  | @call lexeme opening closing xs _ _ first last argument ih =>
    have enclosed : (opening :: (xs ++ [closing])).IsChain Joins :=
      joins_enclosed last (derives_first argument) ih
    refine joins_cons ⟨.identifier, lexeme⟩ ?_ enclosed
    intro next found
    cases found
    simp [first]
  | bracketed _ last inside ih => exact joins_enclosed last (derives_first inside) ih

theorem statement_joins {xs : List Token} {tree : Tree} (statement : Statement xs tree) :
    xs.IsChain Joins ∧ NoCaretFirst xs := by
  cases statement with
  | expression derives => exact ⟨derives_joins derives, (derives_first derives).2⟩
  | @assignment lexeme equal xs _ sign derives =>
    have behind := joins_cons equal (derives_first derives).2 (derives_joins derives)
    refine ⟨joins_cons ⟨.identifier, lexeme⟩ ?_ behind, ?_⟩
    · intro next found
      cases found
      simp [sign]
    · intro next found
      cases found
      simp

theorem operand_before_caret {ys : List Token} {caret : Token} {kind : Kind} {cause : Cause}
    (wrong : Wrong (ys ++ [caret]) kind cause) (isCaret : caret.kind = .caret) :
    ∃ zs operand, ys = zs ++ [operand] ∧
      (operand.kind = .number ∨ operand.kind = .identifier ∨ operand.kind = .bracketClose) := by
  obtain ⟨more, tree, _, statement⟩ := wrong_viable wrong
  obtain ⟨joins, first⟩ := statement_joins statement
  rcases List.eq_nil_or_concat ys with rfl | ⟨zs, operand, rfl⟩
  · exact absurd isCaret (first caret rfl)
  · refine ⟨zs, operand, by simp, ?_⟩
    have order : zs.concat operand ++ [caret] ++ more = zs ++ operand :: caret :: more := by simp
    rw [order] at joins
    exact (List.isChain_append_cons_cons.mp joins).2.1 isCaret

end Operands

section Carets

def lastLine (text : List Char) : List Char :=
  (text.reverse.takeWhile (· ≠ '\n')).reverse

/-- The column at which a token starts in the layout of its line: as many visible characters stand
before it as the lexemes before it have. -/
def startOf (tokens : List Token) (index : Nat) : Option Nat :=
  column? ((tokens.take index).flatMap (·.lexeme.toList)).length (layout tokens).toList

/-- By how many columns the caret of a message stands to the right of the token that it is for. It
is one if the token touches the one before, two if that one is a caret, which has no blanks around
it on the whole line but keeps the one before it when it comes last, and one if the token is itself
a caret without blanks around it. -/
def overhang (before : List Token) (here : Token) (after : List Token) : Nat :=
  match before.getLast? with
  | none => 0
  | some last =>
    if touch last here then 1
    else if last.kind = .caret then 2
    else if here.kind = .caret ∧
        after.head?.any fun next => next.kind ≠ .lineEnd && !touch here next then 1
    else 0

theorem last_line_behind (front : List Char) {line : List Char} (whole : '\n' ∉ line) :
    lastLine (front ++ '\n' :: line) = line := by
  have stays : ∀ c ∈ line.reverse, decide (c ≠ '\n') = true := by
    intro c member
    refine decide_eq_true fun same => whole ?_
    rw [← same]
    exact List.mem_reverse.mp member
  have ends : (front ++ '\n' :: line).reverse = line.reverse ++ '\n' :: front.reverse := by simp
  rw [lastLine, ends, List.takeWhile_append_of_pos stays, List.takeWhile_cons_of_neg (by decide),
    List.append_nil, List.reverse_reverse]

theorem last_line_over_caret (above : String) (count : Nat) :
    lastLine (above ++ "\n" ++ String.ofList (List.replicate count ' ') ++ "^").toList =
      List.replicate count ' ' ++ ['^'] := by
  have newline : "\n".toList = ['\n'] := by decide
  have sign : "^".toList = ['^'] := by decide
  have whole : '\n' ∉ List.replicate count ' ' ++ ['^'] := by
    intro member
    rcases List.mem_append.mp member with space | caret
    · exact absurd (List.eq_of_mem_replicate space) (by decide)
    · exact absurd (List.mem_singleton.mp caret) (by decide)
  rw [String.toList_append, String.toList_append, String.toList_append, newline, sign,
    String.toList_ofList, List.append_assoc, List.append_assoc, List.singleton_append,
    last_line_behind _ whole]

theorem last_line_message (cause : Cause) (xs rest : List Token) :
    lastLine (cause.message (xs ++ rest) xs.length).toList =
      List.replicate ((layout xs).length + if xs.isEmpty then 0 else 1) ' ' ++ ['^'] := by
  unfold Cause.message
  rw [List.take_left]
  exact last_line_over_caret _ _

theorem end_or_inside {words xs more : List Token} {here : Token}
    (split : words ++ [lineEnd] = xs ++ here :: more) :
    xs = words ∧ here = lineEnd ∨ ∃ ws, words = xs ++ here :: ws ∧ more = ws ++ [lineEnd] := by
  rcases List.eq_nil_or_concat more with rfl | ⟨ws, last, rfl⟩
  · have ends := List.append_inj' split rfl
    exact .inl ⟨ends.1.symm, (List.cons.inj ends.2).1.symm⟩
  · rw [List.concat_eq_append, ← List.cons_append, ← List.append_assoc] at split
    have ends := List.append_inj' split rfl
    exact .inr ⟨ws, ends.1, by rw [List.concat_eq_append, ends.2]⟩

variable {xs ws : List Token} {here : Token}

theorem column_first (shape : Shape here.kind here.lexeme.toList) :
    column? 0 (laid (here :: ws)) = some 0 := by
  obtain ⟨c, cs, text, seen, _⟩ := shape_starts shape
  have shown : ¬ isBlank c = true := by simp [seen]
  have tightened : tighten none [] (lined (here :: ws)) =
      c :: tighten (some c) [] (cs ++ behind ws) := by
    rw [lined_cons, text, List.cons_append, tighten, if_neg shown]
    simp
  obtain ⟨back, eq⟩ := join_carets_touching seen (tighten (some c) [] (cs ++ behind ws))
  rw [laid, tightened, eq]
  exact column_behind [] seen back

theorem operand_apart {operand caret : Token}
    (shape : Shape operand.kind operand.lexeme.toList)
    (kind : operand.kind = .number ∨ operand.kind = .identifier ∨ operand.kind = .bracketClose)
    (sign : caret.lexeme.toList = ['^']) : touch operand caret = false := by
  obtain ⟨last, ends⟩ := shape_last shape
  have member := List.mem_of_getLast? ends
  have other : last ≠ '(' := by
    rintro rfl
    have opening : operand.kind = .bracketOpen := kind_of_mem shape member rfl
    rcases kind with kind | kind | kind <;> cases opening.symm.trans kind
  simp [touch, ends, sign, tight, other]

theorem next_before_end (later : ∀ word ∈ ws, Shape word.kind word.lexeme.toList) :
    ((ws ++ [lineEnd]).head?.any fun next => next.kind ≠ .lineEnd && !touch here next) =
      ws.head?.any (!touch here ·) := by
  cases ws with
  | nil => simp [lineEnd]
  | cons next ws =>
    have inner := shape_not_end (later next List.mem_cons_self)
    simp [inner]

theorem column_wrong {cause : Cause} (wrong : Wrong xs here.kind cause)
    (shapes : ∀ word ∈ xs ++ here :: ws, Shape word.kind word.lexeme.toList) :
    ∃ start, column? (visible (laid xs)) (laid (xs ++ here :: ws)) = some start ∧
      (laid xs).length + (if xs.isEmpty then 0 else 1) =
        start + overhang xs here (ws ++ [lineEnd]) := by
  obtain ⟨front, back⟩ := List.forall_mem_append.mp shapes
  obtain ⟨next, later⟩ := List.forall_mem_cons.mp back
  rcases List.eq_nil_or_concat xs with rfl | ⟨ys, before, rfl⟩
  · exact ⟨0, column_first next, rfl⟩
  rw [List.concat_eq_append] at wrong front ⊢
  obtain ⟨earlier, own⟩ := List.forall_mem_append.mp front
  have shape := own before List.mem_cons_self
  have some : (ys ++ [before]).isEmpty = false := by simp
  simp only [overhang, List.getLast?_concat, next_before_end later, some, Bool.false_eq_true,
    if_false]
  by_cases caret : before.kind = .caret
  · obtain ⟨zs, operand, rfl, kind⟩ := operand_before_caret wrong caret
    have operandShape := earlier operand (List.mem_append_right zs List.mem_cons_self)
    have plain : operand.kind ≠ .caret := by
      rcases kind with kind | kind | kind <;> simp [kind]
    have sign : before.lexeme.toList = ['^'] := by
      rw [caret] at shape
      exact shape_caret shape
    have apart := operand_apart operandShape kind sign
    obtain ⟨start, found, sum⟩ :=
      column_behind_caret zs ws operandShape plain apart shape caret next
    rw [List.append_assoc, List.singleton_append]
    exact ⟨start, found, by rw [if_pos caret, sum]⟩
  · obtain ⟨start, found, sum⟩ := column_behind_plain ys shape caret next later
    refine ⟨start, found, ?_⟩
    rw [sum, if_neg caret]
    by_cases close : touch before here
    · simp [close]
    · simp [close]

theorem rejected_reading {line : String} {tokens : List Token} {cause : Cause} {index : Nat}
    (read : Reading.ofLine line = .error (.rejected tokens cause index)) :
    ∃ rest, Token.ofLine line = .ok tokens ∧
      Tree.ofTokens tokens = .error (.rejected cause rest) ∧ index = Failure.index tokens rest := by
  simp only [Reading.ofLine] at read
  split at read
  · cases read
  · rename_i scanned
    split at read
    · rename_i rejected
      cases read
      exact ⟨_, scanned, rejected, rfl⟩
    · cases read
    · cases read

/-- The caret of a rejected line stands as far to the right of the start of the wrong token as the
overhang says, so that it stands under this token if there is none. If the line goes wrong at its
end, the caret stands behind all of the layout. -/
theorem caret_overhangs {line : String} {tokens : List Token} {cause : Cause} {index : Nat}
    (read : Reading.ofLine line = .error (.rejected tokens cause index)) :
    ∃ here caret, tokens[index]? = some here ∧
      lastLine (cause.message tokens index).toList = List.replicate caret ' ' ++ ['^'] ∧
      (here.kind = .lineEnd → (layout tokens).length ≤ caret) ∧
      (here.kind ≠ .lineEnd → ∃ start, startOf tokens index = some start ∧
        caret = start + overhang (tokens.take index) here (tokens.drop (index + 1))) := by
  obtain ⟨rest, scanned, rejected, rfl⟩ := rejected_reading read
  obtain ⟨xs, here, more, eq, rfl, wrong, _⟩ :=
    Tree.rejected_split (ended_of_line scanned) (shaped_of_line scanned) rejected
  obtain ⟨words, rfl, spread⟩ := (of_line_iff line tokens).mp scanned
  have shapes := shaped_of_spread spread
  have inner : ∀ word ∈ words, word.kind ≠ .lineEnd := fun word member =>
    shape_not_end (shapes word member)
  have whole := (laid_layout inner).2
  have place : Failure.index (words ++ [lineEnd]) (here :: more) = xs.length := by
    rw [eq, Failure.index_append]
  rw [place]
  refine ⟨here, _, by simp [eq], by rw [eq, last_line_message], ?_, ?_⟩
  · intro atEnd
    rcases end_or_inside eq with ⟨rfl, _⟩ | ⟨ws, rfl, _⟩
    · rw [← String.length_toList, whole, ← String.length_toList, (laid_layout inner).1]
      exact Nat.le_add_right _ _
    · exact absurd atEnd (inner here (by simp))
  · intro visible
    rcases end_or_inside eq with ⟨_, rfl⟩ | ⟨ws, rfl, rfl⟩
    · exact absurd rfl visible
    · obtain ⟨start, found, sum⟩ := column_wrong wrong shapes
      have front : ∀ word ∈ xs, word.kind ≠ .lineEnd := fun word member =>
        inner word (List.mem_append_left _ member)
      have before := (List.forall_mem_append.mp shapes).1
      have after : (xs ++ here :: (ws ++ [lineEnd])).drop (xs.length + 1) = ws ++ [lineEnd] := by
        simp
      refine ⟨start, ?_, ?_⟩
      · rw [startOf, whole, eq, List.take_left, ← visible_laid before, found]
      · rw [← String.length_toList, (laid_layout front).1, eq, List.take_left, after, sum]

theorem star_behind_caret :
    let tokens : List Token :=
      [⟨.number, "1"⟩, ⟨.caret, "^"⟩, ⟨.star, "*"⟩, ⟨.number, "2"⟩, lineEnd]
    Reading.ofLine "1^*2" = .error (.rejected tokens (.operandExpected .star) 2) ∧
      layout tokens = "1^* 2" ∧ startOf tokens 2 = some 2 ∧
      lastLine ((Cause.operandExpected .star).message tokens 2).toList =
        [' ', ' ', ' ', ' ', '^'] := by
  intro tokens
  have read : Reading.ofLine "1^*2" = .error (.rejected tokens (.operandExpected .star) 2) :=
    error_of_failure (by decide +kernel)
  have start : startOf tokens 2 = some 2 := by decide +kernel
  obtain ⟨here, caret, found, text, _, under⟩ := caret_overhangs read
  cases found
  obtain ⟨column, same, sum⟩ := under (by decide)
  rw [start] at same
  cases same
  have two : overhang (tokens.take 2) ⟨.star, "*"⟩ (tokens.drop 3) = 2 := by decide +kernel
  rw [two] at sum
  rw [text, sum]
  exact ⟨read, by decide +kernel, start, rfl⟩

/-- The bracket at column 1 of `()` is told with a caret at column 2. -/
theorem caret_beside_bracket :
    let tokens : List Token := [⟨.bracketOpen, "("⟩, ⟨.bracketClose, ")"⟩, lineEnd]
    Reading.ofLine "()" = .error (.rejected tokens .bracketEmpty 1) ∧
      layout tokens = "()" ∧ startOf tokens 1 = some 1 ∧
      lastLine (Cause.bracketEmpty.message tokens 1).toList = [' ', ' ', '^'] := by
  exact ⟨error_of_failure (by decide +kernel), by decide +kernel, by decide +kernel,
    by decide +kernel⟩

end Carets

end Reckoner

import Reckoner.Proofs.Formula

/- Written formulas are read back: whatever blanks stand between the tokens, the line is scanned
   into them and has the tree that was meant. -/
namespace Reckoner
open Grammar Token

namespace Grammar

theorem eq_of_rank {phrase other : Phrase} (eq : phrase.rank = other.rank) : phrase = other := by
  cases phrase <;> cases other <;> simp [Phrase.rank] at eq <;> rfl

theorem next_below {upper : Phrase} (above : 0 < upper.rank) :
    ∃ lower, upper.rank = lower.rank + 1 ∧
      ∀ {xs tree}, Derives lower xs tree → Derives upper xs tree := by
  cases upper with
  | expression => exact ⟨.sum, rfl, .unsigned⟩
  | sum => exact ⟨.product, rfl, .single .sum⟩
  | product => exact ⟨.power, rfl, .single .product⟩
  | power => exact ⟨.atom, rfl, .single .power⟩
  | atom => simp [Phrase.rank] at above

theorem derives_up {phrase other : Phrase} {xs : List Token} {tree : Tree}
    (derives : Derives phrase xs tree) (le : phrase.rank ≤ other.rank) :
    Derives other xs tree := by
  induction distance : other.rank - phrase.rank generalizing other with
  | zero =>
    have same : phrase.rank = other.rank := by omega
    rwa [← eq_of_rank same]
  | succ distance ih =>
    have above : 0 < other.rank := by omega
    obtain ⟨lower, next, up⟩ := next_below above
    have below : Derives lower xs tree := ih (by omega) (by omega)
    exact up below

theorem derives_apart {phrase : Phrase} {xs : List Token} {tree : Tree}
    (derives : Derives phrase xs tree) : Apart xs := by
  have bracket : ∀ {token : Token}, token.kind = .bracketOpen ∨ token.kind = .bracketClose →
      ¬ token.IsWord := by
    rintro token (kind | kind) <;> simp [IsWord, kind]
  induction derives with
  | unsigned _ ih => exact ih
  | @signed token xs _ _ sign _ ih =>
    have front : Apart [] := trivial
    exact apart_append (sign_not_word sign) front ih
  | single _ _ ih => exact ih
  | @joined _ _ token _ _ _ _ _ _ _ joint _ left right =>
    exact apart_append (joint_not_word joint) left right
  | number => trivial
  | name => trivial
  | @call lexeme opening closing xs _ _ first last _ ih =>
    have inside : Apart (xs ++ [closing]) := apart_append (bracket (.inr last)) ih trivial
    have front : Apart [⟨.identifier, lexeme⟩] := trivial
    exact apart_append (bracket (.inl first)) front inside
  | @bracketed opening closing xs _ first last _ ih =>
    have inside : Apart (xs ++ [closing]) := apart_append (bracket (.inr last)) ih trivial
    have front : Apart [] := trivial
    exact apart_append (bracket (.inl first)) front inside

end Grammar

namespace Joiner

def chain : Joiner → Phrase
  | add | sub => .sum
  | mul | div => .product
  | pow => .power

def operand : Joiner → Phrase
  | add | sub => .product
  | mul | div => .power
  | pow => .atom

theorem operands (joiner : Joiner) : Operands joiner.chain joiner.operand := by
  cases joiner <;> constructor

theorem joint (joiner : Joiner) : Joint joiner.chain joiner.token.kind joiner.op := by
  cases joiner <;> constructor

theorem chain_rank (joiner : Joiner) : joiner.chain.rank + joiner.level = 3 := by
  cases joiner <;> rfl

theorem operand_rank (joiner : Joiner) : joiner.operand.rank + 1 = joiner.chain.rank := by
  cases joiner <;> rfl

end Joiner

theorem Mark.sign (mark : Mark) : Sign mark.token.kind mark.op := by
  cases mark <;> constructor

namespace Formula

def Place.phrase : Place → Phrase
  | .alone => .expression
  | .behindSign => .sum
  | .leftOf joiner => joiner.chain
  | .rightOf joiner => joiner.operand

theorem in_brackets_derives {xs : List Token} {tree : Tree} (phrase : Phrase)
    (derives : Derives .expression xs tree) : Derives phrase (inBrackets xs) tree :=
  derives_up (.bracketed rfl rfl derives) (Nat.zero_le _)

theorem in_brackets_if_derives {needed : Bool} {place : Place} {phrase : Phrase}
    {xs : List Token} {tree : Tree} (derives : Derives phrase xs tree)
    (fits : needed = false → phrase.rank ≤ place.phrase.rank) :
    Derives place.phrase (inBracketsIf needed xs) tree := by
  cases needed with
  | false => exact derives_up derives (fits rfl)
  | true =>
    have top : phrase.rank ≤ Phrase.expression.rank := by
      cases phrase <;> decide
    exact in_brackets_derives place.phrase (derives_up derives top)

theorem signed_fits (place : Place) :
    place.enclosesSigned = false → Phrase.expression.rank ≤ place.phrase.rank := by
  cases place <;> simp [Place.enclosesSigned, Place.phrase]

theorem joined_fits (joiner : Joiner) (place : Place) :
    place.enclosesJoined joiner = false → joiner.chain.rank ≤ place.phrase.rank := by
  intro free
  have here := joiner.chain_rank
  cases place with
  | alone =>
    have top : Place.alone.phrase.rank = 4 := rfl
    omega
  | behindSign =>
    have top : Place.behindSign.phrase.rank = 3 := rfl
    omega
  | leftOf outer =>
    have there := outer.chain_rank
    simp only [Place.enclosesJoined, decide_eq_false_iff_not] at free
    simp only [Place.phrase]
    omega
  | rightOf outer =>
    have there := outer.chain_rank
    have operand := outer.operand_rank
    simp only [Place.enclosesJoined, decide_eq_false_iff_not] at free
    simp only [Place.phrase]
    omega

theorem tokens_derive (formula : Formula) (place : Place) :
    Derives place.phrase (formula.tokens place) formula.tree := by
  -- over any place, since the parts of a formula stand at places of their own
  induction formula generalizing place with
  | number literal => exact derives_up .number (Nat.zero_le _)
  | name x => exact derives_up .name (Nat.zero_le _)
  | call function argument ih =>
    have atom : Derives .atom (⟨.identifier, function.name⟩ :: inBrackets (argument.tokens .alone))
        (.call function.name argument.tree) := .call function.letters rfl rfl (ih .alone)
    exact derives_up atom (Nat.zero_le _)
  | signed mark operand ih =>
    have expression : Derives .expression _ _ := .signed mark.sign (ih .behindSign)
    exact in_brackets_if_derives expression (signed_fits place)
  | joined joiner left right leftIh rightIh =>
    have chain : Derives joiner.chain _ _ :=
      .joined joiner.operands (leftIh (.leftOf joiner)) joiner.joint (rightIh (.rightOf joiner))
    exact in_brackets_if_derives chain (joined_fits joiner place)
  | bracketed inner ih =>
    have top : place.phrase.rank ≤ Phrase.expression.rank := by
      cases place.phrase <;> decide
    exact in_brackets_derives place.phrase (derives_up (ih place) top)

theorem mark_shape (mark : Mark) : Shape mark.token.kind mark.token.lexeme.toList := by
  cases mark <;> exact .symbol rfl

theorem joiner_shape (joiner : Joiner) : Shape joiner.token.kind joiner.token.lexeme.toList := by
  cases joiner <;> exact .symbol rfl

theorem function_shape (function : FunctionName) : Shape .identifier function.name.toList := by
  have some : function.name.toList ≠ [] := by
    simpa using function.letters.1
  rw [← List.append_nil function.name.toList]
  exact .identifier some function.letters.2 (by simp)

theorem in_brackets_shaped {tokens : List Token}
    (shapes : ∀ token ∈ tokens, Shape token.kind token.lexeme.toList) :
    ∀ token ∈ inBrackets tokens, Shape token.kind token.lexeme.toList := by
  have closing : ∀ token ∈ [(⟨.bracketClose, ")"⟩ : Token)],
      Shape token.kind token.lexeme.toList := by
    simpa using Shape.symbol rfl
  exact List.forall_mem_cons.mpr ⟨.symbol rfl, List.forall_mem_append.mpr ⟨shapes, closing⟩⟩

theorem in_brackets_if_shaped (needed : Bool) {tokens : List Token}
    (shapes : ∀ token ∈ tokens, Shape token.kind token.lexeme.toList) :
    ∀ token ∈ inBracketsIf needed tokens, Shape token.kind token.lexeme.toList := by
  cases needed with
  | false => exact shapes
  | true => exact in_brackets_shaped shapes

theorem tokens_shaped (formula : Formula) (place : Place) :
    ∀ token ∈ formula.tokens place, Shape token.kind token.lexeme.toList := by
  induction formula generalizing place with
  | number literal => simpa [tokens] using literal.shape
  | name x => simpa [tokens] using x.shape
  | call function argument ih =>
    exact List.forall_mem_cons.mpr ⟨function_shape function, in_brackets_shaped (ih .alone)⟩
  | signed mark operand ih =>
    exact in_brackets_if_shaped _ (List.forall_mem_cons.mpr ⟨mark_shape mark, ih .behindSign⟩)
  | joined joiner left right leftIh rightIh =>
    have after : ∀ token ∈ joiner.token :: right.tokens (.rightOf joiner),
        Shape token.kind token.lexeme.toList :=
      List.forall_mem_cons.mpr ⟨joiner_shape joiner, rightIh (.rightOf joiner)⟩
    exact in_brackets_if_shaped _ (List.forall_mem_append.mpr ⟨leftIh (.leftOf joiner), after⟩)
  | bracketed inner ih => exact in_brackets_shaped (ih place)

theorem line_statement (target : Option Variable) (formula : Formula) :
    Statement (lineTokens target formula) (lineTree target formula) := by
  have derives := tokens_derive formula .alone
  cases target with
  | none => exact .expression derives
  | some x => exact .assignment rfl derives

theorem line_shaped (target : Option Variable) (formula : Formula) :
    ∀ token ∈ lineTokens target formula, Shape token.kind token.lexeme.toList := by
  have shapes := tokens_shaped formula .alone
  cases target with
  | none => exact shapes
  | some x =>
    exact List.forall_mem_cons.mpr ⟨x.shape, List.forall_mem_cons.mpr ⟨.symbol rfl, shapes⟩⟩

theorem line_apart (target : Option Variable) (formula : Formula) :
    Apart (lineTokens target formula) := by
  have apart := derives_apart (tokens_derive formula .alone)
  cases target with
  | none => exact apart
  | some x =>
    have equal : ¬ IsWord ⟨.equal, "="⟩ := by simp [IsWord]
    have front : Apart [⟨.identifier, x.name⟩] := trivial
    exact apart_append equal front apart

/-- Formulas can be written, and every way to write one, with whatever blanks between its tokens,
is read as the tree that is meant. -/
theorem written_reads_back (target : Option Variable) (formula : Formula)
    (nested : Nested Tree.nestingLimit (lineTokens target formula)) :
    (∃ line : String, Loose (lineTokens target formula) line.toList) ∧
      ∀ line : String, Loose (lineTokens target formula) line.toList →
        ∃ tokens, Token.ofLine line = .ok tokens ∧
          Tree.ofTokens tokens = .ok (lineTree target formula) := by
  constructor
  · refine ⟨String.ofList ((lineTokens target formula).flatMap (·.lexeme.toList)), ?_⟩
    rw [String.toList_ofList]
    exact loose_touching _
  · intro line loose
    have spread := spread_of_loose loose (line_shaped target formula) (line_apart target formula)
    have derived := line_statement target formula
    have body := body_of_statement derived
    refine ⟨_, scan_of_spread spread, Reader.statement_complete ended_append ?_ ?_⟩
    · rwa [body]
    · rwa [body]

theorem spaced_formula_reads_back :
    ∃ target formula, Nested Tree.nestingLimit (lineTokens target formula) ∧
      Loose (lineTokens target formula) "x=-( 2.5+a1)*\t(f (+b)^(-3) ) ".toList ∧
      lineTree target formula = .assign "x" (.unary .neg (.binary .mul
        (.binary .add (Reader.literal "2.5") (.name "a1"))
        (.binary .pow (.call "f" (.unary .pos (.name "b"))) (.unary .neg (Reader.literal "3"))))) ∧
      ∃ tokens, Token.ofLine "x=-( 2.5+a1)*\t(f (+b)^(-3) ) " = .ok tokens ∧
        Tree.ofTokens tokens = .ok (lineTree target formula) := by
  have digit : ∀ {d : Char}, d.isDigit → ∀ c ∈ [d], c.isDigit :=
    fun here => List.forall_mem_singleton.mpr here
  have letter : ∀ {l : Char}, l.isAlpha → ∀ c ∈ [l], c.isAlpha :=
    fun here => List.forall_mem_singleton.mpr here
  have half : Shape .number (['2'] ++ '.' :: ['5']) :=
    .fraction (by decide) (by decide) (digit rfl) (digit rfl)
  have three : Shape .number ['3'] := .whole (by decide) (digit rfl)
  have x : Shape .identifier (['x'] ++ []) :=
    .identifier (by decide) (letter rfl) (List.forall_mem_nil _)
  have a1 : Shape .identifier (['a'] ++ ['1']) :=
    .identifier (by decide) (letter rfl) (digit rfl)
  have b : Shape .identifier (['b'] ++ []) :=
    .identifier (by decide) (letter rfl) (List.forall_mem_nil _)
  let target : Option Variable := some ⟨"x", x⟩
  let f : FunctionName := ⟨"f", by decide, letter rfl⟩
  let formula : Formula :=
    .signed .minus (.joined .mul (.joined .add (.number ⟨"2.5", half⟩) (.name ⟨"a1", a1⟩))
      (.bracketed (.joined .pow (.call f (.signed .plus (.name ⟨"b", b⟩)))
        (.signed .minus (.number ⟨"3", three⟩)))))
  have scanned : Token.ofLine "x=-( 2.5+a1)*\t(f (+b)^(-3) ) " =
      .ok (lineTokens target formula ++ [lineEnd]) := by
    apply ok_of_toOption
    simp only [target, formula, f, lineTokens, Formula.tokens]
    decide +kernel
  have nested : Nested Tree.nestingLimit (lineTokens target formula) := by
    simp only [target, formula, f, lineTokens, Formula.tokens]
    decide +kernel
  obtain ⟨words, eq, spread⟩ := spread_of_scan scanned
  obtain rfl := List.append_cancel_right eq
  have loose := loose_of_spread spread
  exact ⟨target, formula, nested, loose, rfl, (written_reads_back target formula nested).2 _ loose⟩

end Formula
end Reckoner

import Reckoner.Proofs.Grammar.Readers

/- Every derived tree is read, if there is room for the brackets of its tokens and if what follows
   cannot go on with the phrase. -/
namespace Reckoner.Grammar

/-- The kinds that do not go on with a phrase. -/
def Free : Phrase → Kind → Prop
  | .atom, kind => kind ≠ .bracketOpen
  | .power, kind => kind ≠ .caret ∧ kind ≠ .bracketOpen
  | .product, kind =>
    kind ≠ .star ∧ kind ≠ .slash ∧ kind ≠ .caret ∧ kind ≠ .bracketOpen
  | .sum, kind | .expression, kind =>
    kind ≠ .plus ∧ kind ≠ .minus ∧ kind ≠ .star ∧ kind ≠ .slash ∧ kind ≠ .caret ∧
      kind ≠ .bracketOpen

theorem free_operand {chain phrase : Phrase} (operands : Operands chain phrase) {kind : Kind}
    (free : Free chain kind) : Free phrase kind := by
  cases operands <;> simp_all [Free]

theorem free_joint {chain phrase : Phrase} (operands : Operands chain phrase) {kind : Kind}
    {op : Op} (joint : Joint chain kind op) : Free phrase kind := by
  cases operands <;> cases joint <;> simp [Free]

theorem free_not_joining {chain phrase : Phrase} (operands : Operands chain phrase) {kind : Kind}
    (free : Free chain kind) : kind.joining? (level chain) = none := by
  refine Option.eq_none_iff_forall_ne_some.mpr fun op found => ?_
  have joint := (joining_iff operands kind op).mp found
  cases joint <;> simp [Free] at free

theorem operands_unique {chain phrase other : Phrase} (left : Operands chain phrase)
    (right : Operands chain other) : phrase = other := by
  cases left <;> cases right <;> rfl

def Starts (kind : Kind) : Prop := kind = .number ∨ kind = .identifier ∨ kind = .bracketOpen

theorem derives_starts {phrase : Phrase} {xs : List Token} {tree : Tree}
    (derives : Derives phrase xs tree) :
    ∃ token rest, xs = token :: rest ∧
      (Starts token.kind ∨ phrase = .expression ∧ ∃ op, Sign token.kind op) := by
  induction derives with
  | unsigned _ ih =>
    obtain ⟨token, rest, rfl, starts | ⟨eq, _⟩⟩ := ih
    · exact ⟨token, rest, rfl, .inl starts⟩
    · contradiction
  | @signed token xs op _ sign _ _ => exact ⟨token, xs, rfl, .inr ⟨rfl, op, sign⟩⟩
  | single operands _ ih =>
    obtain ⟨token, rest, rfl, starts | ⟨eq, _⟩⟩ := ih
    · exact ⟨token, rest, rfl, .inl starts⟩
    · cases operands <;> contradiction
  | joined operands _ _ _ ih _ =>
    obtain ⟨token, rest, rfl, starts | ⟨eq, _⟩⟩ := ih
    · exact ⟨token, _, rfl, .inl starts⟩
    · cases operands <;> contradiction
  | number => exact ⟨_, [], rfl, .inl (.inl rfl)⟩
  | name => exact ⟨_, [], rfl, .inl (.inr (.inl rfl))⟩
  | call => exact ⟨_, _, rfl, .inl (.inr (.inl rfl))⟩
  | bracketed first _ _ _ => exact ⟨_, _, rfl, .inl (.inr (.inr first))⟩

def Reads (room : Nat) (phrase : Phrase) (xs : List Token) (tree : Tree) : Prop :=
  ∀ rest, Free phrase (Kind.next rest) →
    (reader room phrase).read (xs ++ rest) = .ok (tree, rest)

def Resumes (room : Nat) (chain : Phrase) (xs : List Token) (tree : Tree) : Prop :=
  ∀ phrase, Operands chain phrase → ∀ rest, Free phrase (Kind.next rest) →
    (reader room chain).read (xs ++ rest) =
      Reader.chainFrom (level chain) (reader room phrase) tree rest

theorem chain_from_free {chain phrase : Phrase} (operands : Operands chain phrase)
    (operand : Reader) (tree : Tree) {rest : List Token} (free : Free chain (Kind.next rest)) :
    Reader.chainFrom (level chain) operand tree rest = .ok (tree, rest) := by
  cases rest with
  | nil => rw [Reader.chainFrom]
  | cons token rest =>
    have none := free_not_joining operands free
    simp only [Kind.next] at none
    rw [chain_from_cons, none]

theorem chain_from_joint {chain phrase : Phrase} (operands : Operands chain phrase)
    {operand : Reader} {token : Token} {op : Op} (joint : Joint chain token.kind op)
    {left right : Tree} {tokens rest : List Token}
    (read : operand.read tokens = .ok (right, rest)) :
    Reader.chainFrom (level chain) operand left (token :: tokens) =
      Reader.chainFrom (level chain) operand (.binary op left right) rest := by
  have joins := (joining_iff operands token.kind op).mpr joint
  rw [chain_from_cons, joins]
  simp only [read]
  rfl

theorem reads_of_resumes {room : Nat} {chain phrase : Phrase} (operands : Operands chain phrase)
    {xs : List Token} {tree : Tree} (resumes : Resumes room chain xs tree) :
    Reads room chain xs tree := by
  intro rest free
  rw [resumes phrase operands rest (free_operand operands free)]
  exact chain_from_free operands _ tree free

theorem resumes_single {room : Nat} {chain phrase : Phrase} (operands : Operands chain phrase)
    {xs : List Token} {tree : Tree} (reads : Reads room phrase xs tree) :
    Resumes room chain xs tree := by
  intro other otherOperands rest free
  obtain rfl := operands_unique operands otherOperands
  rw [reader_chain operands]
  simp only [Reader.chain, reads rest free]

theorem resumes_joined {room : Nat} {chain phrase : Phrase} (operands : Operands chain phrase)
    {token : Token} {op : Op} (joint : Joint chain token.kind op) {xs ys : List Token}
    {left right : Tree} (before : Resumes room chain xs left)
    (last : Reads room phrase ys right) :
    Resumes room chain (xs ++ token :: ys) (.binary op left right) := by
  intro other otherOperands rest free
  obtain rfl := operands_unique operands otherOperands
  have start := before phrase operands (token :: (ys ++ rest)) (free_joint operands joint)
  rw [List.append_assoc, List.cons_append, start]
  exact chain_from_joint operands joint (last rest free)

theorem reads_unsigned {room : Nat} {xs : List Token} {tree : Tree}
    (derives : Derives .sum xs tree) (reads : Reads room .sum xs tree) :
    Reads room .expression xs tree := by
  intro rest free
  obtain ⟨token, tail, rfl, starts | ⟨eq, _⟩⟩ := derives_starts derives
  · have noSign : token.kind.sign? = none := by
      rcases starts with kind | kind | kind <;> rw [kind] <;> rfl
    rw [reader_expression]
    simp only [Reader.signed, List.cons_append, Kind.next, noSign]
    exact reads rest free
  · contradiction

theorem reads_signed {room : Nat} {token : Token} {op : Op} (sign : Sign token.kind op)
    {xs : List Token} {tree : Tree} (reads : Reads room .sum xs tree) :
    Reads room .expression (token :: xs) (.unary op tree) := by
  intro rest free
  have known := (sign_iff token.kind op).mpr sign
  rw [reader_expression]
  simp only [Reader.signed, List.cons_append, Kind.next, known, List.tail_cons, reads rest free]

theorem reads_inside {room : Nat} {closing : Token} (last : closing.kind = .bracketClose)
    {xs : List Token} {tree : Tree} (derives : Derives .expression xs tree)
    (reads : Reads room .expression xs tree) (rest : List Token) :
    (bracket (room + 1)).read (xs ++ closing :: rest) = .ok (tree, rest) := by
  have read := reads (closing :: rest) (by simp [Free, Kind.next, last])
  have notEmpty : Kind.next (xs ++ closing :: rest) ≠ .bracketClose := by
    obtain ⟨token, tail, rfl, (kind | kind | kind) | ⟨_, op, sign⟩⟩ := derives_starts derives
    · simp [Kind.next, kind]
    · simp [Kind.next, kind]
    · simp [Kind.next, kind]
    · exact (sign_kind sign).2.2
  obtain ⟨kind, lexeme⟩ := closing
  obtain rfl : kind = .bracketClose := last
  simp only [bracket, Reader.enclosed, if_neg notEmpty]
  rw [show (Reader.expression room).read _ = _ from read]

theorem reads_name (room : Nat) (lexeme : String) :
    Reads room .atom [⟨.identifier, lexeme⟩] (.name lexeme) := by
  intro rest free
  simp only [reader, Reader.atom, List.singleton_append]
  split
  · simp [Free, Kind.next] at free
  · rfl

theorem reads_bracketed {room : Nat} {opening closing : Token}
    (first : opening.kind = .bracketOpen) (last : closing.kind = .bracketClose)
    {xs : List Token} {tree : Tree} (derives : Derives .expression xs tree)
    (reads : Reads room .expression xs tree) :
    Reads (room + 1) .atom (opening :: (xs ++ [closing])) tree := by
  intro rest _
  have inside := reads_inside last derives reads rest
  obtain ⟨kind, lexeme⟩ := opening
  obtain rfl : kind = .bracketOpen := first
  simpa [reader, Reader.atom] using inside

theorem reads_call {room : Nat} {lexeme : String} (letters : OnlyLetters lexeme)
    {opening closing : Token} (first : opening.kind = .bracketOpen)
    (last : closing.kind = .bracketClose) {xs : List Token} {tree : Tree}
    (derives : Derives .expression xs tree) (reads : Reads room .expression xs tree) :
    Reads (room + 1) .atom (⟨.identifier, lexeme⟩ :: opening :: (xs ++ [closing]))
      (.call lexeme tree) := by
  intro rest _
  have inside := reads_inside last derives reads rest
  have function := function_of_only_letters letters
  obtain ⟨kind, name⟩ := opening
  obtain rfl : kind = .bracketOpen := first
  simp only [reader, Reader.atom, List.cons_append, List.append_assoc, List.nil_append, function,
    if_true, inside]

theorem reads_of_derives {phrase : Phrase} {xs : List Token} {tree : Tree}
    (derives : Derives phrase xs tree) (room : Nat) (nested : Token.Nested room xs) :
    Reads room phrase xs tree ∧ Resumes room phrase xs tree := by
  -- both facts at once: the operands of a chain are read whole, and its front is gone on with
  induction derives generalizing room with
  | unsigned sum ih =>
    exact ⟨reads_unsigned sum (ih room nested).1, fun _ operands => nomatch operands⟩
  | signed sign _ ih =>
    have kind := sign_kind sign
    have tail := Token.nested_tail kind.2.1 kind.2.2 nested
    exact ⟨reads_signed sign (ih room tail).1, fun _ operands => nomatch operands⟩
  | single operands _ ih =>
    have resumes := resumes_single operands (ih room nested).1
    exact ⟨reads_of_resumes operands resumes, resumes⟩
  | joined operands before joint _ left right =>
    have kind := joint_kind joint
    have after := Token.nested_right nested (derives_balanced before)
    have tail := Token.nested_tail kind.2.1 kind.2.2 after
    have front := (left room (Token.nested_left nested)).2
    have resumes := resumes_joined operands joint front (right room tail).1
    exact ⟨reads_of_resumes operands resumes, resumes⟩
  | number => exact ⟨fun _ _ => rfl, fun _ operands => nomatch operands⟩
  | name => exact ⟨reads_name room _, fun _ operands => nomatch operands⟩
  | call letters first last argument ih =>
    have inside := Token.nested_tail (by simp) (by simp) nested
    obtain ⟨less, rfl, tail⟩ := Token.nested_inside first inside
    have reads := (ih less (Token.nested_left tail)).1
    exact ⟨reads_call letters first last argument reads, fun _ operands => nomatch operands⟩
  | bracketed first last inside ih =>
    obtain ⟨less, rfl, tail⟩ := Token.nested_inside first nested
    have reads := (ih less (Token.nested_left tail)).1
    exact ⟨reads_bracketed first last inside reads, fun _ operands => nomatch operands⟩

end Reckoner.Grammar

import Reckoner.Proofs.Grammar

/- The readers of the phrases, how they hand on what they read, and what a tree that they read says
   about the tokens that they took: those derive it. -/
namespace Reckoner.Grammar

def bracket : (room : Nat) → Reader
  | 0 => .enclosed .tooDeep
  | room + 1 => .enclosed (.expression room)

def reader (room : Nat) : Phrase → Reader
  | .expression => .expression room
  | .sum => .operand [[.add, .sub], [.mul, .div], [.pow]] (bracket room)
  | .product => .operand [[.mul, .div], [.pow]] (bracket room)
  | .power => .operand [[.pow]] (bracket room)
  | .atom => .atom (bracket room)

def level : Phrase → List Op
  | .sum => [.add, .sub]
  | .product => [.mul, .div]
  | .power => [.pow]
  | _ => []

theorem reader_expression (room : Nat) :
    reader room .expression = .signed (reader room .sum) := by
  cases room <;> rfl

theorem reader_chain {chain phrase : Phrase} (operands : Operands chain phrase) (room : Nat) :
    reader room chain = .chain (level chain) (reader room phrase) := by
  cases operands <;> rfl

theorem phrase_induction {motive : Phrase → Prop} (atom : motive .atom)
    (chain : ∀ {chain phrase}, Operands chain phrase → motive phrase → motive chain)
    (signed : motive .sum → motive .expression) (phrase : Phrase) : motive phrase := by
  have power : motive .power := chain .power atom
  have product : motive .product := chain .product power
  have sum : motive .sum := chain .sum product
  cases phrase with
  | expression => exact signed sum
  | sum => exact sum
  | product => exact product
  | power => exact power
  | atom => exact atom

/-- A tree with the tokens after it, or what keeps the tokens from having one in front. -/
abbrev Outcome := Except Failure (Tree × List Token)

def withTree (f : Tree → Tree) (outcome : Outcome) : Outcome :=
  outcome.map fun done => (f done.1, done.2)

def closing (done : Tree × List Token) : Outcome :=
  match done.2 with
  | ⟨.bracketClose, _⟩ :: after => .ok (done.1, after)
  | rest => .error (.rejected .bracketUnclosed rest)

theorem enclosed_read (inner : Reader) (tokens : List Token) :
    (Reader.enclosed inner).read tokens =
      if Kind.next tokens = .bracketClose then .error (.rejected .bracketEmpty tokens)
      else inner.read tokens >>= closing := by
  simp only [Reader.enclosed]
  split
  · rfl
  · cases inner.read tokens with
    | error failure => rfl
    | ok done =>
      obtain ⟨tree, _ | ⟨⟨kind, _⟩, _⟩⟩ := done
      · rfl
      · cases kind <;> rfl

theorem call_read (bracket : Reader) {lexeme : String} (function : Token.isFunctionName lexeme)
    (sign : String) (inside : List Token) :
    (Reader.atom bracket).read (⟨.identifier, lexeme⟩ :: ⟨.bracketOpen, sign⟩ :: inside) =
      withTree (.call lexeme) (bracket.read inside) := by
  simp only [Reader.atom, function, if_true]
  cases bracket.read inside <;> rfl

theorem chain_from_cons (level : List Op) (operand : Reader) (left : Tree) (token : Token)
    (rest : List Token) :
    Reader.chainFrom level operand left (token :: rest) =
      match token.kind.joining? level with
      | none => .ok (left, token :: rest)
      | some op => operand.read rest >>= fun done =>
          Reader.chainFrom level operand (.binary op left done.1) done.2 := by
  rw [Reader.chainFrom]
  cases token.kind.joining? level with
  | none => rfl
  | some op =>
    simp only
    split <;> rename_i read <;> rw [read] <;> rfl

theorem chain_read (level : List Op) (operand : Reader) (tokens : List Token) :
    (Reader.chain level operand).read tokens =
      operand.read tokens >>= fun done => Reader.chainFrom level operand done.1 done.2 := by
  simp only [Reader.chain]
  cases operand.read tokens <;> rfl

theorem signed_read (sum : Reader) (tokens : List Token) :
    (Reader.signed sum).read tokens =
      match (Kind.next tokens).sign? with
      | none => sum.read tokens
      | some op => withTree (.unary op) (sum.read tokens.tail) := by
  simp only [Reader.signed]
  cases (Kind.next tokens).sign? with
  | none => rfl
  | some op => cases sum.read tokens.tail <;> rfl

theorem joining_iff {chain phrase : Phrase} (operands : Operands chain phrase) (kind : Kind)
    (op : Op) : kind.joining? (level chain) = some op ↔ Joint chain kind op := by
  constructor
  · intro found
    cases operands <;> cases kind <;>
      simp [Kind.joining?, Kind.binary?, level, Option.filter] at found <;> subst found <;>
      constructor
  · intro joint
    cases joint <;> rfl

theorem sign_iff (kind : Kind) (op : Op) : kind.sign? = some op ↔ Sign kind op := by
  constructor
  · intro found
    cases kind <;> simp [Kind.sign?] at found <;> subst found <;> constructor
  · intro sign
    cases sign <;> rfl

theorem only_letters_of_function {lexeme : String} (function : Token.isFunctionName lexeme)
    (shaped : Token.Shaped ⟨.identifier, lexeme⟩) : OnlyLetters lexeme := by
  simp only [Token.isFunctionName, Bool.and_eq_true, ne_eq, decide_eq_true_eq,
    List.all_eq_true] at function
  refine ⟨function.1, fun c member => ?_⟩
  rcases shaped with atEnd | shape
  · simp [Token.lineEnd] at atEnd
  · simp only at shape
    generalize lexeme.toList = text at *
    cases shape with
    | @identifier letters digits _ allLetters all =>
      rcases List.mem_append.mp member with first | digit
      · exact allLetters c first
      · -- no digit is a letter of any script
        have bounds := Lexeme.digit_bounds (all c digit)
        have letter := function.2 c member
        simp only [CharSet.contains_iff] at letter
        obtain ⟨range, listed, low, high⟩ := letter
        have above : ∀ range ∈ Text.letters.ranges, 0x40 < range.1 := by decide +kernel
        have := above range listed
        omega
    | symbol known => simp [Kind.symbol?] at known

theorem function_of_only_letters {lexeme : String} (letters : OnlyLetters lexeme) :
    Token.isFunctionName lexeme := by
  simp only [Token.isFunctionName, Bool.and_eq_true, decide_eq_true_eq, List.all_eq_true]
  exact ⟨letters.1, fun c member => Text.letters_contains_of_ascii c (letters.2 c member)⟩

/-- Trees that a reader reads are derived from the tokens that it takes, and these need no more room
than there is. -/
def Sound (reader : Reader) (phrase : Phrase) (room : Nat) : Prop :=
  ∀ ⦃tokens tree rest⦄, (∀ token ∈ tokens, token.Shaped) →
    reader.read tokens = .ok (tree, rest) →
      ∃ xs, tokens = xs ++ rest ∧ Derives phrase xs tree ∧ Token.Nested room xs

def SoundInside (reader : Reader) (room : Nat) : Prop :=
  ∀ ⦃tokens tree rest⦄, (∀ token ∈ tokens, token.Shaped) →
    reader.read tokens = .ok (tree, rest) →
      ∃ xs closing, tokens = xs ++ closing :: rest ∧ closing.kind = .bracketClose ∧
        Derives .expression xs tree ∧
          ∀ opening, Token.kind opening = .bracketOpen →
            Token.Nested room (opening :: (xs ++ [closing]))

theorem sound_no_room (room : Nat) : SoundInside (.enclosed .tooDeep) room := by
  intro tokens tree rest _ read
  rw [enclosed_read] at read
  split at read <;> cases read

theorem sound_enclosed {inner : Reader} {room : Nat} (sound : Sound inner .expression room) :
    SoundInside (.enclosed inner) (room + 1) := by
  intro tokens tree rest shaped read
  simp only [Reader.enclosed] at read
  split at read
  · simp at read
  · split at read
    · simp at read
    · rename_i inside
      obtain ⟨xs, rfl, derives, nested⟩ := sound shaped inside
      split at read
      · simp only [Except.ok.injEq, Prod.mk.injEq] at read
        obtain ⟨rfl, rfl⟩ := read
        refine ⟨xs, _, rfl, rfl, derives, fun opening first => ?_⟩
        exact Token.nested_enclosed first rfl (derives_balanced derives) nested
      · simp at read

theorem nested_word {room : Nat} {token : Token} (word : token.IsWord) :
    Token.Nested room [token] := by
  rcases word with kind | kind <;>
    exact Token.nested_cons (by simp [kind]) (by simp [kind]) (Token.nested_nil room)

theorem sound_atom {bracket : Reader} {room : Nat} (sound : SoundInside bracket room) :
    Sound (.atom bracket) .atom room := by
  intro tokens tree rest shaped read
  simp only [Reader.atom] at read
  split at read
  · simp at read
  · simp only [Except.ok.injEq, Prod.mk.injEq] at read
    obtain ⟨rfl, rfl⟩ := read
    exact ⟨_, List.singleton_append.symm, .number, nested_word (.inl rfl)⟩
  · rename_i lexeme rest'
    split at read
    · rename_i opening inside
      split at read
      · rename_i function
        split at read
        · simp at read
        · rename_i argument
          simp only [Except.ok.injEq, Prod.mk.injEq] at read
          obtain ⟨rfl, rfl⟩ := read
          have tail : ∀ token ∈ inside, token.Shaped :=
            (List.forall_mem_cons.mp (List.forall_mem_cons.mp shaped).2).2
          obtain ⟨xs, closing, rfl, last, derives, nested⟩ := sound tail argument
          have letters := only_letters_of_function function (shaped _ List.mem_cons_self)
          have first : Token.kind ⟨.bracketOpen, opening⟩ = .bracketOpen := rfl
          exact ⟨_, by simp, .call letters first last derives,
            Token.nested_cons (by simp) (by simp) (nested _ first)⟩
      · simp only [Except.ok.injEq, Prod.mk.injEq] at read
        obtain ⟨rfl, rfl⟩ := read
        exact ⟨_, List.singleton_append.symm, .name, nested_word (.inr rfl)⟩
    · simp only [Except.ok.injEq, Prod.mk.injEq] at read
      obtain ⟨rfl, rfl⟩ := read
      exact ⟨_, List.singleton_append.symm, .name, nested_word (.inr rfl)⟩
  · rename_i opening inside
    have tail : ∀ token ∈ inside, token.Shaped := (List.forall_mem_cons.mp shaped).2
    obtain ⟨xs, closing, rfl, last, derives, nested⟩ := sound tail read
    have first : Token.kind ⟨.bracketOpen, opening⟩ = .bracketOpen := rfl
    exact ⟨_, by simp, .bracketed first last derives, nested _ first⟩
  · simp at read
  · simp at read

theorem sound_chain_from {chain phrase : Phrase} (operands : Operands chain phrase)
    {operand : Reader} {room : Nat} (sound : Sound operand phrase room) {left tree : Tree}
    {xs tokens rest : List Token} (shaped : ∀ token ∈ tokens, token.Shaped)
    (before : Derives chain xs left) (nested : Token.Nested room xs)
    (read : Reader.chainFrom (level chain) operand left tokens = .ok (tree, rest)) :
    ∃ ys, tokens = ys ++ rest ∧ Derives chain (xs ++ ys) tree ∧ Token.Nested room (xs ++ ys) := by
  fun_induction Reader.chainFrom (level chain) operand left tokens generalizing xs with
  | case1 left =>
    cases read
    exact ⟨[], rfl, by rwa [List.append_nil], by rwa [List.append_nil]⟩
  | case2 left token tokens none =>
    cases read
    exact ⟨[], rfl, by rwa [List.append_nil], by rwa [List.append_nil]⟩
  | case3 => simp at read
  | case4 left token tokens op joins right after readRight ih =>
    have tail : ∀ other ∈ tokens, other.Shaped := (List.forall_mem_cons.mp shaped).2
    obtain ⟨ys, rfl, last, lastNested⟩ := sound tail readRight
    have joint := (joining_iff operands token.kind op).mp joins
    have longer : Derives chain (xs ++ token :: ys) (.binary op left right) :=
      .joined operands before joint last
    have kind := joint_kind joint
    have deeper : Token.Nested room (xs ++ token :: ys) :=
      Token.nested_append (derives_balanced before) nested
        (Token.nested_cons kind.2.1 kind.2.2 lastNested)
    have further : ∀ other ∈ after, other.Shaped := (List.forall_mem_append.mp tail).2
    obtain ⟨zs, rfl, derives, whole⟩ := ih further longer deeper read
    refine ⟨token :: (ys ++ zs), by simp, ?_, ?_⟩
    · rwa [List.append_assoc, List.cons_append] at derives
    · rwa [List.append_assoc, List.cons_append] at whole

theorem sound_chain {chain phrase : Phrase} (operands : Operands chain phrase)
    {operand : Reader} {room : Nat} (sound : Sound operand phrase room) :
    Sound (.chain (level chain) operand) chain room := by
  intro tokens tree rest shaped read
  simp only [Reader.chain] at read
  split at read
  · simp at read
  · rename_i first after readFirst
    obtain ⟨xs, rfl, derives, nested⟩ := sound shaped readFirst
    have tail : ∀ token ∈ after, token.Shaped := (List.forall_mem_append.mp shaped).2
    obtain ⟨ys, rfl, whole, wholeNested⟩ :=
      sound_chain_from operands sound tail (.single operands derives) nested read
    exact ⟨xs ++ ys, by rw [List.append_assoc], whole, wholeNested⟩

theorem sound_signed {sum : Reader} {room : Nat} (sound : Sound sum .sum room) :
    Sound (.signed sum) .expression room := by
  intro tokens tree rest shaped read
  simp only [Reader.signed] at read
  split at read
  · obtain ⟨xs, rfl, derives, nested⟩ := sound shaped read
    exact ⟨xs, rfl, .unsigned derives, nested⟩
  · rename_i op known
    split at read
    · simp at read
    · rename_i readSum
      simp only [Except.ok.injEq, Prod.mk.injEq] at read
      obtain ⟨rfl, rfl⟩ := read
      cases tokens with
      | nil => simp [Kind.next, Kind.sign?] at known
      | cons token tokens =>
        have tail : ∀ other ∈ tokens, other.Shaped := (List.forall_mem_cons.mp shaped).2
        obtain ⟨xs, eq, derives, nested⟩ := sound tail readSum
        have sign := (sign_iff token.kind op).mp known
        have kind := sign_kind sign
        exact ⟨token :: xs, by rw [eq, List.cons_append], .signed sign derives,
          Token.nested_cons kind.2.1 kind.2.2 nested⟩

theorem sound_of_inside {room : Nat} (sound : SoundInside (bracket room) room) (phrase : Phrase) :
    Sound (reader room phrase) phrase room := by
  induction phrase using phrase_induction with
  | atom => exact sound_atom sound
  | chain operands ih =>
    rw [reader_chain operands]
    exact sound_chain operands ih
  | signed ih =>
    rw [reader_expression]
    exact sound_signed ih

theorem sound_inside (room : Nat) : SoundInside (bracket room) room := by
  induction room with
  | zero => exact sound_no_room 0
  | succ room ih => exact sound_enclosed (sound_of_inside ih .expression)

theorem sound_reader (room : Nat) (phrase : Phrase) : Sound (reader room phrase) phrase room :=
  sound_of_inside (sound_inside room) phrase

end Reckoner.Grammar

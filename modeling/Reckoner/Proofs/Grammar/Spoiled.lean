import Reckoner.Proofs.Grammar.Completeness

/- Where phrases go wrong. The front of a phrase is spoiled by the kind of the token after it, for a
   cause. Whatever a reader rejects is spoiled in this way by the token where it does, and what is
   spoiled could have gone on to make a phrase with another token there. The cause can be told from
   the brackets that are open and from the tokens on both sides of that place. -/
namespace Reckoner.Grammar
open Token

inductive Opens : List Token → Prop where
  | bracket {opening : Token} (first : opening.kind = .bracketOpen) : Opens [opening]
  | call {lexeme : String} {opening : Token} (letters : OnlyLetters lexeme)
      (first : opening.kind = .bracketOpen) : Opens [⟨.identifier, lexeme⟩, opening]

/-- The front of a phrase, the kind of the token that is wrong after it, and the cause. -/
inductive Spoiled : Phrase → List Token → Kind → Cause → Prop where
  | missing : Spoiled .atom [] .lineEnd .operandMissing
  | misplaced {kind} (other : ¬ Starts kind) (inner : kind ≠ .lineEnd) :
      Spoiled .atom [] kind (.operandExpected kind)
  | empty {front} (opens : Opens front) : Spoiled .atom front .bracketClose .bracketEmpty
  | inside {front xs kind cause} (opens : Opens front)
      (occupied : xs = [] → kind ≠ .bracketClose) (spoiled : Spoiled .expression xs kind cause) :
      Spoiled .atom (front ++ xs) kind cause
  | unclosed {front xs kind tree} (opens : Opens front) (inside : Derives .expression xs tree)
      (more : kind ≠ .bracketClose) : Spoiled .atom (front ++ xs) kind .bracketUnclosed
  | first {chain phrase xs kind cause} (operands : Operands chain phrase)
      (spoiled : Spoiled phrase xs kind cause) : Spoiled chain xs kind cause
  | joined {chain phrase token xs ys op left kind cause} (operands : Operands chain phrase)
      (before : Derives chain xs left) (joint : Joint chain token.kind op)
      (spoiled : Spoiled phrase ys kind cause) : Spoiled chain (xs ++ token :: ys) kind cause
  | unsigned {xs kind cause} (spoiled : Spoiled .sum xs kind cause) :
      Spoiled .expression xs kind cause
  | signed {token xs op kind cause} (sign : Sign token.kind op)
      (spoiled : Spoiled .sum xs kind cause) : Spoiled .expression (token :: xs) kind cause

inductive Wrong : List Token → Kind → Cause → Prop where
  | expression {xs kind cause} (spoiled : Spoiled .expression xs kind cause) : Wrong xs kind cause
  | assignment {lexeme equal xs kind cause} (sign : equal.kind = .equal)
      (spoiled : Spoiled .expression xs kind cause) :
      Wrong (⟨.identifier, lexeme⟩ :: equal :: xs) kind cause
  | trailing {xs kind tree} (whole : Statement xs tree) (more : kind ≠ .lineEnd) :
      Wrong xs kind (.trailing kind)

section Readers

def Explained (reader : Reader) (phrase : Phrase) : Prop :=
  ∀ ⦃tokens cause rest⦄, (∀ token ∈ tokens, token.Shaped) →
    reader.read tokens = .error (.rejected cause rest) →
      ∃ xs, tokens = xs ++ rest ∧ Spoiled phrase xs (Kind.next rest) cause

def ExplainedInside (reader : Reader) : Prop :=
  ∀ ⦃tokens cause rest⦄, (∀ token ∈ tokens, token.Shaped) →
    reader.read tokens = .error (.rejected cause rest) →
      ∃ xs, tokens = xs ++ rest ∧
        ∀ front, Opens front → Spoiled .atom (front ++ xs) (Kind.next rest) cause

theorem closing_rejected {tree : Tree} {after rest : List Token} {cause : Cause}
    (rejected : closing (tree, after) = .error (.rejected cause rest)) :
    cause = .bracketUnclosed ∧ rest = after ∧ Kind.next after ≠ .bracketClose := by
  rcases after with _ | ⟨⟨kind, lexeme⟩, after⟩
  · cases rejected
    exact ⟨rfl, rfl, by simp [Kind.next]⟩
  · cases kind <;> cases rejected <;> exact ⟨rfl, rfl, by simp [Kind.next]⟩

theorem rejected_of_bind {outcome : Outcome} {next : Tree × List Token → Outcome} {cause : Cause}
    {rest : List Token} (rejected : (outcome >>= next) = .error (.rejected cause rest)) :
    outcome = .error (.rejected cause rest) ∨
      ∃ tree after, outcome = .ok (tree, after) ∧
        next (tree, after) = .error (.rejected cause rest) := by
  cases outcome with
  | error failure => exact .inl rejected
  | ok done => exact .inr ⟨done.1, done.2, rfl, rejected⟩

theorem with_tree_rejected {f : Tree → Tree} {outcome : Outcome} {cause : Cause}
    {rest : List Token} (rejected : withTree f outcome = .error (.rejected cause rest)) :
    outcome = .error (.rejected cause rest) := by
  cases outcome with
  | error failure => exact rejected
  | ok done => cases rejected

theorem explained_enclosed {inner : Reader} {room : Nat} (sound : Sound inner .expression room)
    (explained : Explained inner .expression) : ExplainedInside (.enclosed inner) := by
  intro tokens cause rest shaped rejected
  rw [enclosed_read] at rejected
  split at rejected
  · rename_i closes
    cases rejected
    refine ⟨[], rfl, fun front opens => ?_⟩
    rw [List.append_nil, closes]
    exact .empty opens
  · rename_i occupied
    rcases rejected_of_bind rejected with inside | ⟨tree, after, read, closed⟩
    · obtain ⟨xs, rfl, spoiled⟩ := explained shaped inside
      refine ⟨xs, rfl, fun front opens => .inside opens ?_ spoiled⟩
      rintro rfl
      exact occupied
    · obtain ⟨rfl, rfl, more⟩ := closing_rejected closed
      obtain ⟨xs, rfl, derives, _⟩ := sound shaped read
      exact ⟨xs, rfl, fun front opens => .unclosed opens derives more⟩

theorem explained_atom {bracket : Reader} (explained : ExplainedInside bracket) :
    Explained (.atom bracket) .atom := by
  intro tokens cause rest shaped rejected
  rcases tokens with _ | ⟨⟨kind, lexeme⟩, tokens⟩
  · cases rejected
    exact ⟨[], rfl, .missing⟩
  have tail : ∀ token ∈ tokens, token.Shaped := (List.forall_mem_cons.mp shaped).2
  cases kind with
  | number => cases rejected
  | identifier =>
    rcases tokens with _ | ⟨⟨kind, sign⟩, inside⟩
    · cases rejected
    cases kind with
    | bracketOpen =>
      by_cases function : Token.isFunctionName lexeme
      · rw [call_read bracket function] at rejected
        have letters := only_letters_of_function function (shaped _ List.mem_cons_self)
        obtain ⟨xs, rfl, spoiled⟩ :=
          explained (List.forall_mem_cons.mp tail).2 (with_tree_rejected rejected)
        exact ⟨_, rfl, spoiled _ (.call letters rfl)⟩
      · simp only [Reader.atom, if_neg function] at rejected
        cases rejected
    | _ => cases rejected
  | bracketOpen =>
    obtain ⟨xs, rfl, spoiled⟩ := explained tail rejected
    exact ⟨_, rfl, spoiled _ (.bracket rfl)⟩
  | lineEnd =>
    cases rejected
    exact ⟨[], rfl, .missing⟩
  | _ =>
    cases rejected
    exact ⟨[], rfl, .misplaced (by simp [Starts, Kind.next]) (by simp [Kind.next])⟩

theorem explained_chain_from {chain phrase : Phrase} (operands : Operands chain phrase)
    {operand : Reader} {room : Nat} (sound : Sound operand phrase room)
    (explained : Explained operand phrase) {left : Tree} {xs tokens rest : List Token}
    {cause : Cause} (shaped : ∀ token ∈ tokens, token.Shaped) (before : Derives chain xs left)
    (rejected : Reader.chainFrom (level chain) operand left tokens =
      .error (.rejected cause rest)) :
    ∃ ys, tokens = ys ++ rest ∧ Spoiled chain (xs ++ ys) (Kind.next rest) cause := by
  fun_induction Reader.chainFrom (level chain) operand left tokens generalizing xs with
  | case1 => cases rejected
  | case2 => cases rejected
  | case3 left token tokens op joins failure read =>
    cases rejected
    have joint := (joining_iff operands token.kind op).mp joins
    obtain ⟨ys, rfl, spoiled⟩ := explained (List.forall_mem_cons.mp shaped).2 read
    exact ⟨token :: ys, rfl, .joined operands before joint spoiled⟩
  | case4 left token tokens op joins right after read ih =>
    have joint := (joining_iff operands token.kind op).mp joins
    have tail : ∀ other ∈ tokens, other.Shaped := (List.forall_mem_cons.mp shaped).2
    obtain ⟨ys, rfl, last, _⟩ := sound tail read
    have longer : Derives chain (xs ++ token :: ys) (.binary op left right) :=
      .joined operands before joint last
    obtain ⟨zs, rfl, spoiled⟩ := ih (List.forall_mem_append.mp tail).2 longer rejected
    rw [List.append_assoc] at spoiled
    exact ⟨token :: (ys ++ zs), by simp, spoiled⟩

theorem explained_chain {chain phrase : Phrase} (operands : Operands chain phrase)
    {operand : Reader} {room : Nat} (sound : Sound operand phrase room)
    (explained : Explained operand phrase) :
    Explained (.chain (level chain) operand) chain := by
  intro tokens cause rest shaped rejected
  rw [chain_read] at rejected
  rcases rejected_of_bind rejected with first | ⟨tree, after, read, further⟩
  · obtain ⟨xs, rfl, spoiled⟩ := explained shaped first
    exact ⟨xs, rfl, .first operands spoiled⟩
  · obtain ⟨xs, rfl, derives, _⟩ := sound shaped read
    have tail : ∀ token ∈ after, token.Shaped := (List.forall_mem_append.mp shaped).2
    obtain ⟨ys, rfl, spoiled⟩ :=
      explained_chain_from operands sound explained tail (.single operands derives) further
    exact ⟨xs ++ ys, (List.append_assoc ..).symm, spoiled⟩

theorem explained_signed {sum : Reader} (explained : Explained sum .sum) :
    Explained (.signed sum) .expression := by
  intro tokens cause rest shaped rejected
  rw [signed_read] at rejected
  split at rejected
  · obtain ⟨xs, rfl, spoiled⟩ := explained shaped rejected
    exact ⟨xs, rfl, .unsigned spoiled⟩
  · rename_i op known
    cases tokens with
    | nil => simp [Kind.next, Kind.sign?] at known
    | cons token tokens =>
      have sign := (sign_iff token.kind op).mp known
      obtain ⟨xs, rfl, spoiled⟩ :=
        explained (List.forall_mem_cons.mp shaped).2 (with_tree_rejected rejected)
      exact ⟨token :: xs, rfl, .signed sign spoiled⟩

theorem explained_of_inside {room : Nat} (explained : ExplainedInside (bracket room))
    (phrase : Phrase) : Explained (reader room phrase) phrase := by
  induction phrase using phrase_induction with
  | atom => exact explained_atom explained
  | @chain chain phrase operands ih =>
    rw [reader_chain operands]
    exact explained_chain operands (sound_reader room phrase) ih
  | signed ih =>
    rw [reader_expression]
    exact explained_signed ih

theorem explained_inside (room : Nat) : ExplainedInside (bracket room) := by
  induction room with
  | zero =>
    have sound : Sound .tooDeep .expression 0 := by
      intro tokens tree rest _ read
      cases read
    have nothing : Explained .tooDeep .expression := by
      intro tokens cause rest _ rejected
      cases rejected
    exact explained_enclosed sound nothing
  | succ room ih =>
    exact explained_enclosed (sound_reader room .expression) (explained_of_inside ih .expression)

theorem explained_reader (room : Nat) (phrase : Phrase) :
    Explained (reader room phrase) phrase :=
  explained_of_inside (explained_inside room) phrase

end Readers

section Viable

def fillers : List Token := [⟨.number, "1"⟩, ⟨.bracketClose, ")"⟩]

theorem filler_shape : ∀ token ∈ fillers, Shape token.kind token.lexeme.toList := by
  simp only [fillers, List.forall_mem_cons]
  exact ⟨.whole (by simp) (by simp), .symbol rfl, List.forall_mem_nil _⟩

theorem filler_closes : ∀ token ∈ fillers, token.kind ≠ .bracketOpen ∧ token.kind ≠ .lineEnd := by
  decide

theorem derives_opened {front xs : List Token} {tree : Tree} (opens : Opens front)
    (inside : Derives .expression xs tree) :
    ∃ whole, Derives .atom (front ++ xs ++ [⟨.bracketClose, ")"⟩]) whole := by
  have last : Token.kind ⟨.bracketClose, ")"⟩ = .bracketClose := rfl
  cases opens with
  | bracket first =>
    have whole := Derives.bracketed first last inside
    exact ⟨_, by simpa using whole⟩
  | call letters first =>
    have whole := Derives.call letters first last inside
    exact ⟨_, by simpa using whole⟩

theorem derives_one : Derives .expression [⟨.number, "1"⟩] (Reader.literal "1") :=
  .unsigned (.single .sum (.single .product (.single .power .number)))

/-- The front of a phrase can go on to make one, with operands and ends of brackets only. -/
theorem spoiled_viable {phrase : Phrase} {xs : List Token} {kind : Kind} {cause : Cause}
    (spoiled : Spoiled phrase xs kind cause) :
    ∃ ys tree, (∀ token ∈ ys, token ∈ fillers) ∧ Derives phrase (xs ++ ys) tree := by
  induction spoiled with
  | missing => exact ⟨[⟨.number, "1"⟩], _, by simp [fillers], .number⟩
  | misplaced => exact ⟨[⟨.number, "1"⟩], _, by simp [fillers], .number⟩
  | empty opens =>
    obtain ⟨whole, derives⟩ := derives_opened opens derives_one
    exact ⟨fillers, whole, fun token member => member, by simpa [fillers] using derives⟩
  | inside opens _ _ ih =>
    obtain ⟨ys, tree, plain, derives⟩ := ih
    obtain ⟨whole, derives⟩ := derives_opened opens derives
    refine ⟨ys ++ [⟨.bracketClose, ")"⟩], whole, ?_, by simpa using derives⟩
    exact List.forall_mem_append.mpr ⟨plain, by simp [fillers]⟩
  | unclosed opens inside _ =>
    obtain ⟨whole, derives⟩ := derives_opened opens inside
    exact ⟨[⟨.bracketClose, ")"⟩], whole, by simp [fillers], derives⟩
  | first operands _ ih =>
    obtain ⟨ys, tree, plain, derives⟩ := ih
    exact ⟨ys, tree, plain, .single operands derives⟩
  | joined operands before joint _ ih =>
    obtain ⟨ys, tree, plain, derives⟩ := ih
    have whole := Derives.joined operands before joint derives
    exact ⟨ys, _, plain, by simpa using whole⟩
  | unsigned _ ih =>
    obtain ⟨ys, tree, plain, derives⟩ := ih
    exact ⟨ys, tree, plain, .unsigned derives⟩
  | signed sign _ ih =>
    obtain ⟨ys, tree, plain, derives⟩ := ih
    exact ⟨ys, _, plain, .signed sign derives⟩

theorem wrong_viable {xs : List Token} {kind : Kind} {cause : Cause} (wrong : Wrong xs kind cause) :
    ∃ ys tree, (∀ token ∈ ys, token ∈ fillers) ∧ Statement (xs ++ ys) tree := by
  cases wrong with
  | expression spoiled =>
    obtain ⟨ys, tree, plain, derives⟩ := spoiled_viable spoiled
    exact ⟨ys, tree, plain, .expression derives⟩
  | assignment sign spoiled =>
    obtain ⟨ys, tree, plain, derives⟩ := spoiled_viable spoiled
    exact ⟨ys, _, plain, .assignment sign derives⟩
  | trailing whole _ => exact ⟨[], _, List.forall_mem_nil _, by rwa [List.append_nil]⟩

end Viable

section Blame

def Complete (tokens : List Token) : Prop :=
  ∃ last ∈ tokens.getLast?,
    last.kind = .number ∨ last.kind = .identifier ∨ last.kind = .bracketClose

def EndsOpening (tokens : List Token) : Prop :=
  ∃ last ∈ tokens.getLast?, last.kind = .bracketOpen

/-- What the tokens before the wrong one and its kind have to do with the cause. -/
def Blames (before : List Token) (kind : Kind) : Cause → Prop
  | .unended => False
  | .operandMissing => ¬ Complete before ∧ kind = .lineEnd
  | .operandExpected found =>
    found = kind ∧ ¬ Complete before ∧ kind ≠ .lineEnd ∧
      ¬ (EndsOpening before ∧ kind = .bracketClose)
  | .bracketEmpty => EndsOpening before ∧ kind = .bracketClose
  | .bracketUnclosed => Complete before ∧ closed before < opened before
  | .trailing found => found = kind ∧ Complete before ∧ Token.Balanced before

theorem complete_append {ys : List Token} (complete : Complete ys) (xs : List Token) :
    Complete (xs ++ ys) := by
  obtain ⟨last, found, kind⟩ := complete
  refine ⟨last, ?_, kind⟩
  rw [List.getLast?_append, Option.mem_def.mp found]
  rfl

theorem complete_last (xs : List Token) (last : Token) :
    Complete (xs ++ [last]) ↔
      last.kind = .number ∨ last.kind = .identifier ∨ last.kind = .bracketClose := by
  simp [Complete]

theorem ends_opening_last (xs : List Token) (last : Token) :
    EndsOpening (xs ++ [last]) ↔ last.kind = .bracketOpen := by
  simp [EndsOpening]

theorem derives_complete {phrase : Phrase} {xs : List Token} {tree : Tree}
    (derives : Derives phrase xs tree) : Complete xs := by
  induction derives with
  | unsigned _ ih => exact ih
  | @signed token xs _ _ _ _ ih => exact complete_append ih [token]
  | single _ _ ih => exact ih
  | @joined _ _ token xs ys _ _ _ _ _ _ _ _ ih =>
    have whole := complete_append ih (xs ++ [token])
    rwa [List.append_assoc] at whole
  | number => exact (complete_last [] _).mpr (.inl rfl)
  | name => exact (complete_last [] _).mpr (.inr (.inl rfl))
  | @call lexeme opening closing xs _ _ _ last _ _ =>
    exact (complete_last (⟨.identifier, lexeme⟩ :: opening :: xs) closing).mpr (.inr (.inr last))
  | @bracketed opening closing xs _ _ last _ _ =>
    exact (complete_last (opening :: xs) closing).mpr (.inr (.inr last))

theorem opens_ends {front : List Token} (opens : Opens front) :
    EndsOpening front ∧ ¬ Complete front ∧ opened front = closed front + 1 := by
  cases opens with
  | bracket first =>
    simp [EndsOpening, Complete, opened_cons, closed_cons, opened_nil, closed_nil, first]
  | call letters first =>
    simp [EndsOpening, Complete, opened_cons, closed_cons, opened_nil, closed_nil, first]

theorem operator_leaves_open (xs : List Token) {token : Token} (word : ¬ token.IsWord)
    (bracket : token.kind ≠ .bracketOpen ∧ token.kind ≠ .bracketClose) :
    ¬ Complete (xs ++ [token]) ∧ ¬ EndsOpening (xs ++ [token]) := by
  rw [complete_last, ends_opening_last]
  simp only [IsWord, not_or] at word
  exact ⟨by simp [word, bracket], bracket.1⟩

theorem operator_balanced {token : Token}
    (bracket : token.kind ≠ .bracketOpen ∧ token.kind ≠ .bracketClose) : Token.Balanced [token] :=
  balanced_cons bracket.1 bracket.2 rfl

theorem balanced_front {front xs : List Token} (even : Token.Balanced front)
    (less : closed xs ≤ opened xs) : closed (front ++ xs) ≤ opened (front ++ xs) := by
  have same : opened front = closed front := even
  rw [opened_append, closed_append]
  omega

theorem blames_append {front xs : List Token} {kind : Kind} {cause : Cause}
    (blames : Blames xs kind cause) (inner : ∀ found, cause ≠ .trailing found)
    (open_ : closed front ≤ opened front) (incomplete : ¬ Complete front)
    (occupied : xs = [] → EndsOpening front → kind ≠ .bracketClose) :
    Blames (front ++ xs) kind cause := by
  by_cases empty : xs = []
  · subst empty
    rw [List.append_nil]
    cases cause with
    | unended => exact blames
    | operandMissing => exact ⟨incomplete, blames.2⟩
    | operandExpected found =>
      exact ⟨blames.1, incomplete, blames.2.2.1, fun both => occupied rfl both.1 both.2⟩
    | bracketEmpty =>
      obtain ⟨⟨last, found, _⟩, _⟩ := blames
      cases found
    | bracketUnclosed =>
      obtain ⟨⟨last, found, _⟩, _⟩ := blames
      cases found
    | trailing found => exact absurd rfl (inner found)
  · have last : (front ++ xs).getLast? = xs.getLast? := by
      rw [List.getLast?_append, List.getLast?_eq_some_getLast empty]
      rfl
    have complete : Complete (front ++ xs) ↔ Complete xs := by simp only [Complete, last]
    have opening : EndsOpening (front ++ xs) ↔ EndsOpening xs := by simp only [EndsOpening, last]
    cases cause with
    | unended => exact blames
    | operandMissing => rwa [Blames, complete]
    | operandExpected found => rwa [Blames, complete, opening]
    | bracketEmpty => rwa [Blames, opening]
    | bracketUnclosed =>
      rw [Blames, complete, opened_append, closed_append]
      exact ⟨blames.1, by have := blames.2; omega⟩
    | trailing found => exact absurd rfl (inner found)

theorem spoiled_blames {phrase : Phrase} {xs : List Token} {kind : Kind} {cause : Cause}
    (spoiled : Spoiled phrase xs kind cause) :
    closed xs ≤ opened xs ∧ (∀ found, cause ≠ .trailing found) ∧ Blames xs kind cause := by
  have nothing : ¬ Complete [] ∧ ¬ EndsOpening [] := by simp [Complete, EndsOpening]
  induction spoiled with
  | missing => exact ⟨Nat.le_refl 0, by simp, nothing.1, rfl⟩
  | misplaced _ inner =>
    exact ⟨Nat.le_refl 0, by simp, rfl, nothing.1, inner, fun both => nothing.2 both.1⟩
  | empty opens =>
    obtain ⟨ends, _, count⟩ := opens_ends opens
    exact ⟨by omega, by simp, ends, rfl⟩
  | inside opens occupied _ ih =>
    obtain ⟨_, incomplete, count⟩ := opens_ends opens
    obtain ⟨less, inner, blames⟩ := ih
    refine ⟨?_, inner,
      blames_append blames inner (by omega) incomplete fun empty _ => occupied empty⟩
    rw [opened_append, closed_append]
    omega
  | unclosed opens inside _ =>
    obtain ⟨_, _, count⟩ := opens_ends opens
    have even : opened _ = closed _ := derives_balanced inside
    refine ⟨?_, by simp, complete_append (derives_complete inside) _, ?_⟩
    · rw [opened_append, closed_append]
      omega
    · rw [opened_append, closed_append]
      omega
  | first _ _ ih => exact ih
  | @joined _ _ token xs ys _ _ _ _ _ before joint _ ih =>
    obtain ⟨less, inner, blames⟩ := ih
    have even : Token.Balanced (xs ++ [token]) :=
      balanced_append (derives_balanced before) (operator_balanced (joint_kind joint).2)
    obtain ⟨incomplete, opening⟩ :=
      operator_leaves_open xs (joint_not_word joint) (joint_kind joint).2
    rw [List.append_cons]
    exact ⟨balanced_front even less, inner, blames_append blames inner (Nat.le_of_eq even.symm)
      incomplete fun _ ends => absurd ends opening⟩
  | unsigned _ ih => exact ih
  | @signed token xs _ _ _ sign _ ih =>
    obtain ⟨less, inner, blames⟩ := ih
    have even : Token.Balanced [token] := operator_balanced (sign_kind sign).2
    obtain ⟨incomplete, opening⟩ :=
      operator_leaves_open [] (sign_not_word sign) (sign_kind sign).2
    exact ⟨balanced_front even less, inner, blames_append blames inner (Nat.le_of_eq even.symm)
      incomplete fun _ ends => absurd ends opening⟩

end Blame

end Reckoner.Grammar

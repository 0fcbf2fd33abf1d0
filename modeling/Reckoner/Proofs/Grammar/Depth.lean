import Reckoner.Proofs.Grammar.Readers

/- The limit on open brackets. A reader with less room reads and rejects as one with more room does,
   as long as it gets along with its own; it gives up only behind tokens that hold one open bracket
   too many, and the other one gets there as well. -/
namespace Reckoner.Grammar
open Token

def remaining : Outcome → Option (List Token)
  | .ok (_, rest) => some rest
  | .error (.rejected _ rest) => some rest
  | .error .tooDeep => none

/-- The tokens before a wrong one keep within the room, or the last of them is a bracket too many
that is found to be empty. -/
inductive Before (room : Nat) (cause : Cause) (xs : List Token) : Prop
  | nested (nested : Nested room xs)
  | empty {front : List Token} {opening : Token} (last : xs = front ++ [opening])
      (nested : Nested room front) (cause : cause = .bracketEmpty)

theorem before_append {room : Nat} {cause : Cause} {xs ys : List Token} (balanced : Balanced ys)
    (nested : Nested room ys) (before : Before room cause xs) : Before room cause (ys ++ xs) := by
  rcases before with within | ⟨rfl, within, empty⟩
  · exact .nested (nested_append balanced nested within)
  · exact .empty (List.append_assoc ..).symm (nested_append balanced nested within) empty

theorem before_opening {room : Nat} {cause : Cause} {xs : List Token} {opening : Token}
    (first : opening.kind = .bracketOpen) (before : Before room cause xs) :
    Before (room + 1) cause (opening :: xs) := by
  rcases before with within | ⟨rfl, within, empty⟩
  · exact .nested (nested_opening first within)
  · exact .empty (List.cons_append ..).symm (nested_opening first within) empty

/-- What comes of the tokens with this much room, beside what comes of them with more. Outcomes tell
of the end of the tokens only, so some tokens at the front may have been taken before. -/
inductive Cut (room : Nat) (tokens : List Token) (small large : Outcome) : Prop where
  | read {xs rest : List Token} {tree : Tree} (eq : tokens = xs ++ rest)
      (noEnd : ∀ token ∈ xs, token.kind ≠ .lineEnd) (balanced : Balanced xs)
      (nested : Nested room xs) (small : small = .ok (tree, rest))
      (large : large = .ok (tree, rest))
  | rejected {xs rest : List Token} {cause : Cause} (eq : tokens = xs ++ rest)
      (noEnd : ∀ token ∈ xs, token.kind ≠ .lineEnd) (before : Before room cause xs)
      (small : small = .error (.rejected cause rest))
      (large : large = .error (.rejected cause rest))
  | tooDeep {xs rest : List Token} (eq : tokens = xs ++ rest)
      (noEnd : ∀ token ∈ xs, token.kind ≠ .lineEnd) (opens : opened xs = closed xs + (room + 1))
      (small : small = .error .tooDeep)
      (later : ∀ left ∈ remaining large, left.length ≤ rest.length)

section Outcomes

variable {room : Nat} {tokens : List Token} {small large : Outcome}

theorem cut_remaining (cut : Cut room tokens small large) :
    ∀ left ∈ remaining large, left.length ≤ tokens.length := by
  rcases cut with ⟨rfl, _, _, _, _, rfl⟩ | ⟨rfl, _, _, _, rfl⟩ | ⟨rfl, _, _, _, later⟩
  · simp [remaining]
  · simp [remaining]
  · intro left member
    have bound := later left member
    rw [List.length_append]
    omega

theorem cut_done (tree : Tree) (rest : List Token) :
    Cut room rest (.ok (tree, rest)) (.ok (tree, rest)) :=
  .read (List.nil_append rest).symm (List.forall_mem_nil _) rfl (nested_nil room) rfl rfl

theorem cut_here (cause : Cause) (rest : List Token) :
    Cut room rest (.error (.rejected cause rest)) (.error (.rejected cause rest)) :=
  .rejected (List.nil_append rest).symm (List.forall_mem_nil _) (.nested (nested_nil room)) rfl rfl

theorem cut_empty {opening : Token} (first : opening.kind = .bracketOpen) :
    Cut room (opening :: tokens) (.error (.rejected .bracketEmpty tokens))
      (.error (.rejected .bracketEmpty tokens)) := by
  have before : Before room .bracketEmpty [opening] :=
    .empty (List.nil_append [opening]).symm (nested_nil room) rfl
  exact .rejected List.singleton_append.symm (by simp [first]) before rfl rfl

theorem cut_append {ys : List Token} (noEnd : ∀ token ∈ ys, token.kind ≠ .lineEnd)
    (balanced : Balanced ys) (nested : Nested room ys) (cut : Cut room tokens small large) :
    Cut room (ys ++ tokens) small large := by
  rcases cut with ⟨rfl, inner, balancedAfter, nestedAfter, small, large⟩ |
    ⟨rfl, inner, before, small, large⟩ | ⟨rfl, inner, opens, small, later⟩
  · exact .read (List.append_assoc ..).symm (List.forall_mem_append.mpr ⟨noEnd, inner⟩)
      (balanced_append balanced balancedAfter) (nested_append balanced nested nestedAfter) small
      large
  · exact .rejected (List.append_assoc ..).symm (List.forall_mem_append.mpr ⟨noEnd, inner⟩)
      (before_append balanced nested before) small large
  · refine .tooDeep (List.append_assoc ..).symm (List.forall_mem_append.mpr ⟨noEnd, inner⟩) ?_ small
      later
    have even : opened ys = closed ys := balanced
    simp only [opened_append, closed_append]
    omega

theorem cut_cons {token : Token} (inner : token.kind ≠ .lineEnd)
    (opening : token.kind ≠ .bracketOpen) (closing : token.kind ≠ .bracketClose)
    (cut : Cut room tokens small large) : Cut room (token :: tokens) small large := by
  have alone : Balanced [token] := balanced_cons opening closing rfl
  have nested : Nested room [token] := nested_cons opening closing (nested_nil room)
  exact cut_append (List.forall_mem_singleton.mpr inner) alone nested cut

theorem remaining_bind {outcome : Outcome} {next : Tree × List Token → Outcome} {count : Nat}
    (first : ∀ left ∈ remaining outcome, left.length ≤ count)
    (after : ∀ tree rest, outcome = .ok (tree, rest) →
      ∀ left ∈ remaining (next (tree, rest)), left.length ≤ rest.length) :
    ∀ left ∈ remaining (outcome >>= next), left.length ≤ count := by
  intro left member
  cases outcome with
  | error failure => exact first left member
  | ok done =>
    obtain ⟨tree, rest⟩ := done
    exact Nat.le_trans (after tree rest rfl left member) (first rest rfl)

theorem cut_bind {next further : Tree × List Token → Outcome} (first : Cut room tokens small large)
    (after : ∀ tree rest, small = .ok (tree, rest) ∨ large = .ok (tree, rest) →
      Cut room rest (next (tree, rest)) (further (tree, rest))) :
    Cut room tokens (small >>= next) (large >>= further) := by
  rcases first with ⟨rfl, noEnd, balanced, nested, rfl, rfl⟩ | ⟨rfl, noEnd, before, rfl, rfl⟩ |
    ⟨rfl, noEnd, opens, rfl, later⟩
  · exact cut_append noEnd balanced nested (after _ _ (.inl rfl))
  · exact .rejected rfl noEnd before rfl rfl
  · refine .tooDeep rfl noEnd opens rfl (remaining_bind later fun tree rest read => ?_)
    -- only the reader with more room has gone on, but never back
    exact cut_remaining (after tree rest (.inr read))

theorem cut_with_tree (f : Tree → Tree) (cut : Cut room tokens small large) :
    Cut room tokens (withTree f small) (withTree f large) := by
  rcases cut with ⟨eq, noEnd, balanced, nested, rfl, rfl⟩ | ⟨eq, noEnd, before, rfl, rfl⟩ |
    ⟨eq, noEnd, opens, rfl, later⟩
  · exact .read eq noEnd balanced nested rfl rfl
  · exact .rejected eq noEnd before rfl rfl
  · refine .tooDeep eq noEnd opens rfl fun left member => later left ?_
    cases large <;> exact member

end Outcomes

def Cuts (room : Nat) (small large : Reader) : Prop :=
  ∀ tokens, Cut room tokens (small.read tokens) (large.read tokens)

def CutsInside (room : Nat) (small large : Reader) : Prop :=
  ∀ opening tokens, Token.kind opening = .bracketOpen →
    Cut room (opening :: tokens) (small.read tokens) (large.read tokens)

theorem remaining_closing (tree : Tree) (rest : List Token) :
    ∀ left ∈ remaining (closing (tree, rest)), left.length ≤ rest.length := by
  unfold closing
  split <;> simp_all [remaining]

theorem cuts_enclosed {room : Nat} {small large : Reader} (cuts : Cuts room small large) :
    CutsInside (room + 1) (.enclosed small) (.enclosed large) := by
  intro opening tokens first
  have within : ∀ {xs : List Token}, (∀ token ∈ xs, token.kind ≠ .lineEnd) →
      ∀ token ∈ opening :: xs, token.kind ≠ .lineEnd := fun noEnd =>
    List.forall_mem_cons.mpr ⟨by simp [first], noEnd⟩
  rw [enclosed_read, enclosed_read]
  by_cases empty : Kind.next tokens = .bracketClose
  · rw [if_pos empty, if_pos empty]
    exact cut_empty first
  rw [if_neg empty, if_neg empty]
  rcases cuts tokens with ⟨rfl, noEnd, balanced, nested, small, large⟩ |
    ⟨rfl, noEnd, before, small, large⟩ | ⟨rfl, noEnd, opens, small, later⟩
  · rename_i xs rest tree
    rw [small, large]
    simp only [bind, Except.bind, closing]
    split
    · rename_i sign after
      have whole : opening :: (xs ++ ⟨.bracketClose, sign⟩ :: after) =
          (opening :: (xs ++ [⟨.bracketClose, sign⟩])) ++ after := by simp
      exact .read whole (within (List.forall_mem_append.mpr ⟨noEnd, by simp⟩))
        (balanced_enclosed first rfl balanced) (nested_enclosed first rfl balanced nested) rfl rfl
    · exact .rejected (List.cons_append ..).symm (within noEnd)
        (.nested (nested_opening first nested)) rfl rfl
  · rw [small, large]
    exact .rejected (List.cons_append ..).symm (within noEnd) (before_opening first before) rfl rfl
  · rw [small]
    refine .tooDeep (List.cons_append ..).symm (within noEnd) ?_ rfl
      (remaining_bind later fun tree rest _ => remaining_closing tree rest)
    simp only [opened_cons, closed_cons, first, reduceCtorEq, if_true, if_false]
    omega

theorem cuts_atom {room : Nat} {small large : Reader} (inside : CutsInside room small large) :
    Cuts room (.atom small) (.atom large) := by
  intro tokens
  have name : ∀ {lexeme rest}, Cut room (⟨.identifier, lexeme⟩ :: rest)
      (.ok (.name lexeme, rest)) (.ok (.name lexeme, rest)) :=
    cut_cons (by simp) (by simp) (by simp) (cut_done _ _)
  rcases tokens with _ | ⟨⟨kind, lexeme⟩, rest⟩
  · exact cut_here .operandMissing []
  cases kind with
  | number => exact cut_cons (by simp) (by simp) (by simp) (cut_done _ rest)
  | identifier =>
    rcases rest with _ | ⟨⟨kind, sign⟩, rest⟩
    · exact name
    cases kind with
    | bracketOpen =>
      by_cases function : Token.isFunctionName lexeme
      · rw [call_read small function, call_read large function]
        have argument := cut_with_tree (.call lexeme) (inside ⟨.bracketOpen, sign⟩ rest rfl)
        exact cut_cons (by simp) (by simp) (by simp) argument
      · simp only [Reader.atom, if_neg function]
        exact name
    | _ => exact name
  | bracketOpen => exact inside _ rest rfl
  | lineEnd => exact cut_here .operandMissing _
  | _ => exact cut_here _ _

theorem cuts_chain_from {chain phrase : Phrase} (operands : Operands chain phrase) {room : Nat}
    {small large : Reader} (cuts : Cuts room small large) (left : Tree) (tokens : List Token) :
    Cut room tokens (Reader.chainFrom (level chain) small left tokens)
      (Reader.chainFrom (level chain) large left tokens) := by
  induction size : tokens.length using Nat.strongRecOn generalizing left tokens with
  | ind size ih =>
    cases tokens with
    | nil =>
      rw [Reader.chainFrom, Reader.chainFrom]
      exact cut_done left []
    | cons token rest =>
      rw [chain_from_cons, chain_from_cons]
      split
      · exact cut_done left _
      · rename_i op joins
        have kind := joint_kind ((joining_iff operands token.kind op).mp joins)
        refine cut_cons kind.1.1 kind.2.1 kind.2.2 (cut_bind (cuts rest) ?_)
        intro right after read
        have shorter : after.length < rest.length := by
          rcases read with read | read
          · exact small.consumes read
          · exact large.consumes read
        simp only [List.length_cons] at size
        exact ih after.length (by omega) _ after rfl

theorem cuts_chain {chain phrase : Phrase} (operands : Operands chain phrase) {room : Nat}
    {small large : Reader} (cuts : Cuts room small large) :
    Cuts room (.chain (level chain) small) (.chain (level chain) large) := by
  intro tokens
  rw [chain_read, chain_read]
  exact cut_bind (cuts tokens) fun first rest _ => cuts_chain_from operands cuts first rest

theorem cuts_signed {room : Nat} {small large : Reader} (cuts : Cuts room small large) :
    Cuts room (.signed small) (.signed large) := by
  intro tokens
  rw [signed_read, signed_read]
  split
  · exact cuts tokens
  · rename_i op known
    cases tokens with
    | nil => simp [Kind.next, Kind.sign?] at known
    | cons token tokens =>
      have kind := sign_kind ((sign_iff token.kind op).mp known)
      exact cut_cons kind.1.1 kind.2.1 kind.2.2 (cut_with_tree (.unary op) (cuts tokens))

theorem cuts_of_inside {room small large : Nat}
    (inside : CutsInside room (bracket small) (bracket large)) (phrase : Phrase) :
    Cuts room (reader small phrase) (reader large phrase) := by
  induction phrase using phrase_induction with
  | atom => exact cuts_atom inside
  | chain operands ih =>
    rw [reader_chain operands, reader_chain operands]
    exact cuts_chain operands ih
  | signed ih =>
    rw [reader_expression, reader_expression]
    exact cuts_signed ih

theorem cuts_no_room {large : Reader}
    (within : ∀ tokens, ∀ left ∈ remaining (large.read tokens), left.length ≤ tokens.length) :
    CutsInside 0 (bracket 0) (.enclosed large) := by
  intro opening tokens first
  rw [bracket, enclosed_read, enclosed_read]
  by_cases empty : Kind.next tokens = .bracketClose
  · rw [if_pos empty, if_pos empty]
    exact cut_empty first
  · rw [if_neg empty, if_neg empty]
    refine .tooDeep List.singleton_append.symm (by simp [first]) ?_ rfl
      (remaining_bind (within tokens) fun tree rest _ => remaining_closing tree rest)
    simp [opened_cons, closed_cons, opened_nil, closed_nil, first]

theorem cuts_from_none (large : Nat) : CutsInside 0 (bracket 0) (bracket large) := by
  induction large with
  | zero =>
    have nothing : ∀ tokens, ∀ left ∈ remaining (Reader.tooDeep.read tokens),
        left.length ≤ tokens.length := by simp [Reader.tooDeep, remaining]
    exact cuts_no_room nothing
  | succ large ih =>
    exact cuts_no_room fun tokens => cut_remaining (cuts_of_inside ih .expression tokens)

theorem cuts_inside {small large : Nat} (le : small ≤ large) :
    CutsInside small (bracket small) (bracket large) := by
  induction small generalizing large with
  | zero => exact cuts_from_none large
  | succ small ih =>
    cases large with
    | zero => omega
    | succ large =>
      exact cuts_enclosed (cuts_of_inside (ih (Nat.le_of_succ_le_succ le)) .expression)

/-- The reader of a phrase is cut by a limit on its brackets, and changed in no other way. -/
theorem cuts_reader {small large : Nat} (le : small ≤ large) (phrase : Phrase) :
    Cuts small (reader small phrase) (reader large phrase) :=
  cuts_of_inside (cuts_inside le) phrase

end Reckoner.Grammar

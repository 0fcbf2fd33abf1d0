import Reckoner.Proofs.Evaluation
import Reckoner.Proofs.Grammar.Sight

/- The part of a list of tokens that a reader takes. It is not empty, holds neither an end of line
   nor an equals sign, and closes every bracket that it opens and no other. What is read depends on
   these tokens and on the one after them only. -/
namespace Reckoner.Grammar
open Token

section Slices

def Covered (tokens : List Token) : Prop :=
  ∀ front back, tokens = front ++ back → closed front ≤ opened front

structure Slice (tokens : List Token) : Prop where
  some : tokens ≠ []
  inner : ∀ token ∈ tokens, Inner token.kind
  covered : Covered tokens
  balanced : Token.Balanced tokens

variable {xs ys : List Token} {token opening closing : Token}

theorem covered_append (left : Covered xs) (balanced : Token.Balanced xs) (right : Covered ys) :
    Covered (xs ++ ys) := by
  intro front back eq
  rcases List.append_eq_append_iff.mp eq with ⟨more, rfl, rest⟩ | ⟨more, rest, _⟩
  · have bound := right more back rest
    simp only [Token.Balanced, opened_append, closed_append] at *
    omega
  · exact left front more rest

theorem covered_enclosed (first : opening.kind = .bracketOpen) (last : closing.kind = .bracketClose)
    (inside : Slice xs) : Covered (opening :: (xs ++ [closing])) := by
  intro front back eq
  rcases List.cons_eq_append_iff.mp eq with ⟨rfl, _⟩ | ⟨rest, rfl, after⟩
  · exact Nat.le_refl 0
  have even : opened xs = closed xs := inside.balanced
  have bound : closed rest ≤ opened rest + 1 := by
    rcases List.append_eq_append_iff.mp after with ⟨more, rfl, tail⟩ | ⟨more, whole, _⟩
    · have single : closed [closing] = 1 := by simp [closed, last]
      rw [tail, closed_append] at single
      rw [opened_append, closed_append]
      omega
    · have covered := inside.covered rest more whole
      omega
  simp only [opened_cons, closed_cons, first, reduceCtorEq, if_true, if_false]
  exact bound

theorem slice_single (inner : Inner token.kind) (notOpening : token.kind ≠ .bracketOpen)
    (notClosing : token.kind ≠ .bracketClose) : Slice [token] where
  some := List.cons_ne_nil _ _
  inner := List.forall_mem_singleton.mpr inner
  covered := by
    intro front back eq
    have none : closed [token] = 0 := by simp [closed, notClosing]
    rw [eq, closed_append] at none
    omega
  balanced := balanced_cons notOpening notClosing rfl

theorem slice_append (left : Slice xs) (right : Slice ys) : Slice (xs ++ ys) where
  some := List.append_ne_nil_of_left_ne_nil left.some ys
  inner := List.forall_mem_append.mpr ⟨left.inner, right.inner⟩
  covered := covered_append left.covered left.balanced right.covered
  balanced := balanced_append left.balanced right.balanced

theorem slice_enclosed (first : opening.kind = .bracketOpen) (last : closing.kind = .bracketClose)
    (inside : Slice xs) : Slice (opening :: (xs ++ [closing])) where
  some := List.cons_ne_nil _ _
  inner := inner_enclosed first last inside.inner
  covered := covered_enclosed first last inside
  balanced := balanced_enclosed first last inside.balanced

end Slices

section Taken

def Takes (reader : Reader) : Prop :=
  ∀ ⦃tokens tree rest⦄, reader.read tokens = .ok (tree, rest) →
    ∃ xs, tokens = xs ++ rest ∧ Slice xs

def TakesInside (reader : Reader) : Prop :=
  ∀ ⦃tokens tree rest⦄, reader.read tokens = .ok (tree, rest) →
    ∃ xs closing, tokens = xs ++ closing :: rest ∧ closing.kind = .bracketClose ∧ Slice xs

theorem of_with_tree {f : Tree → Tree} {outcome : Outcome} {tree : Tree} {rest : List Token}
    (done : withTree f outcome = .ok (tree, rest)) : ∃ inner, outcome = .ok (inner, rest) := by
  rcases outcome with failure | ⟨inner, left⟩
  · cases done
  · cases done
    exact ⟨inner, rfl⟩

theorem joining_kind {kind : Kind} {level : List Op} {op : Op}
    (joins : kind.joining? level = some op) :
    Inner kind ∧ kind ≠ .bracketOpen ∧ kind ≠ .bracketClose := by
  cases kind <;> simp_all [Kind.joining?, Kind.binary?, Inner]

theorem takes_enclosed {inner : Reader} (takes : Takes inner) : TakesInside (.enclosed inner) := by
  intro tokens tree rest done
  rw [enclosed_read] at done
  split at done
  · cases done
  obtain ⟨⟨inside, left⟩, read, closes⟩ := ok_of_bind done
  obtain ⟨xs, rfl, slice⟩ := takes read
  rcases left with _ | ⟨⟨kind, lexeme⟩, left⟩
  · cases closes
  · cases kind <;> cases closes
    exact ⟨xs, _, rfl, rfl, slice⟩

theorem takes_atom {bracket : Reader} (inside : TakesInside bracket) : Takes (.atom bracket) := by
  have group : ∀ {sign tokens tree rest}, bracket.read tokens = .ok (tree, rest) →
      ∃ xs, ⟨.bracketOpen, sign⟩ :: tokens = xs ++ rest ∧ Slice xs := by
    intro sign tokens tree rest read
    obtain ⟨xs, closing, rfl, last, slice⟩ := inside read
    have first : Token.kind ⟨.bracketOpen, sign⟩ = .bracketOpen := rfl
    exact ⟨_, by simp, slice_enclosed first last slice⟩
  intro tokens tree rest done
  rcases tokens with _ | ⟨⟨kind, lexeme⟩, tokens⟩
  · cases done
  cases kind with
  | number =>
    cases done
    exact ⟨_, List.singleton_append.symm, slice_single (by simp [Inner]) (by simp) (by simp)⟩
  | identifier =>
    have word : Slice [⟨.identifier, lexeme⟩] :=
      slice_single (by simp [Inner]) (by simp) (by simp)
    rw [named_read] at done
    split at done
    · rename_i called
      rcases tokens with _ | ⟨⟨kind, sign⟩, tokens⟩
      · cases called.1
      obtain rfl : kind = .bracketOpen := called.1
      obtain ⟨argument, read⟩ := of_with_tree done
      obtain ⟨xs, eq, slice⟩ := group read
      exact ⟨_, congrArg _ eq, slice_append word slice⟩
    · cases done
      exact ⟨_, List.singleton_append.symm, word⟩
  | bracketOpen => exact group done
  | _ => cases done

theorem takes_chain_from (level : List Op) {operand : Reader} (takes : Takes operand)
    {left tree : Tree} {xs tokens rest : List Token} (before : Slice xs)
    (done : Reader.chainFrom level operand left tokens = .ok (tree, rest)) :
    ∃ ys, tokens = ys ++ rest ∧ Slice (xs ++ ys) := by
  fun_induction Reader.chainFrom level operand left tokens generalizing xs with
  | case1 left =>
    cases done
    exact ⟨[], rfl, by rwa [List.append_nil]⟩
  | case2 left token tokens none =>
    cases done
    exact ⟨[], rfl, by rwa [List.append_nil]⟩
  | case3 => cases done
  | case4 left token tokens op joins right after read ih =>
    obtain ⟨ys, rfl, last⟩ := takes read
    have kind := joining_kind joins
    have longer : Slice (xs ++ ([token] ++ ys)) :=
      slice_append before (slice_append (slice_single kind.1 kind.2.1 kind.2.2) last)
    obtain ⟨zs, rfl, whole⟩ := ih longer done
    exact ⟨token :: (ys ++ zs), by simp, by simpa using whole⟩

theorem takes_chain (level : List Op) {operand : Reader} (takes : Takes operand) :
    Takes (.chain level operand) := by
  intro tokens tree rest done
  rw [chain_read] at done
  obtain ⟨⟨first, left⟩, read, more⟩ := ok_of_bind done
  obtain ⟨xs, rfl, slice⟩ := takes read
  obtain ⟨ys, rfl, whole⟩ := takes_chain_from level takes slice more
  exact ⟨xs ++ ys, (List.append_assoc _ _ _).symm, whole⟩

theorem takes_signed {sum : Reader} (takes : Takes sum) : Takes (.signed sum) := by
  intro tokens tree rest done
  rw [signed_read] at done
  split at done
  · exact takes done
  rename_i op known
  rcases tokens with _ | ⟨token, tokens⟩
  · cases known
  have kind := sign_kind ((sign_iff token.kind op).mp known)
  obtain ⟨operand, read⟩ := of_with_tree done
  obtain ⟨xs, eq, slice⟩ := takes read
  exact ⟨_, congrArg _ eq, slice_append (slice_single kind.1 kind.2.1 kind.2.2) slice⟩

theorem takes_operand (levels : List (List Op)) {bracket : Reader} (inside : TakesInside bracket) :
    Takes (.operand levels bracket) := by
  induction levels with
  | nil => exact takes_atom inside
  | cons level levels ih => exact takes_chain level ih

theorem takes_expression {room : Nat} (inside : TakesInside (bracket room)) :
    Takes (.expression room) := by
  have signed : Takes (.signed (reader room .sum)) := takes_signed (takes_operand Op.levels inside)
  rwa [← reader_expression] at signed

theorem takes_bracket (room : Nat) : TakesInside (bracket room) := by
  induction room with
  | zero =>
    have nothing : Takes .tooDeep := by
      intro tokens tree rest done
      cases done
    exact takes_enclosed nothing
  | succ room ih => exact takes_enclosed (takes_expression ih)

end Taken

section Positions

/-- The parts of the grammar that read on from a place in a line, those of the chains by the level
of their operators. -/
inductive Part
  | expression
  | level (precedence : Fin Op.levels.length)
  | operand (precedence : Fin (Op.levels.length + 1))
  | atom
  | bracketed
  deriving DecidableEq, Repr

def Part.read (room : Nat) : Part → List Token → Outcome
  | .expression => (Reader.expression room).read
  | .level precedence =>
    (Reader.chain Op.levels[precedence]
      (Reader.operand (Op.levels.drop (precedence + 1)) (bracket room))).read
  | .operand precedence => (Reader.operand (Op.levels.drop precedence) (bracket room)).read
  | .atom => (Reader.atom (bracket room)).read
  | .bracketed => fun tokens => (bracket room).read tokens.tail

/-- A part read at an index of the tokens, with the index behind it. -/
def Part.consume (room : Nat) (part : Part) (tokens : List Token) (start : Nat) :
    Except Failure (Tree × Nat) :=
  (part.read room (tokens.drop start)).map fun done => (done.1, Failure.index tokens done.2)

theorem part_takes {room : Nat} {part : Part} {tokens rest : List Token} {tree : Tree}
    (first : part = .bracketed → Kind.next tokens = .bracketOpen)
    (done : part.read room tokens = .ok (tree, rest)) :
    ∃ xs, tokens = xs ++ rest ∧ Slice xs := by
  have inside := takes_bracket room
  cases part with
  | expression => exact takes_expression inside done
  | level precedence => exact takes_chain _ (takes_operand _ inside) done
  | operand precedence => exact takes_operand _ inside done
  | atom => exact takes_atom inside done
  | bracketed =>
    obtain ⟨xs, closing, eq, last, slice⟩ := inside done
    rcases tokens with _ | ⟨opening, tokens⟩
    · cases first rfl
    · obtain rfl : tokens = xs ++ closing :: rest := eq
      exact ⟨_, by simp, slice_enclosed (first rfl) last slice⟩

theorem part_sight (room : Nat) (part : Part) (tokens : List Token) :
    Sight (part.read room) tokens := by
  have inside := sighted_bracket room
  cases part with
  | expression => exact sighted_reader room .expression tokens
  | level precedence => exact sighted_chain _ (sighted_operand _ inside) tokens
  | operand precedence => exact sighted_operand _ inside tokens
  | atom => exact sighted_atom inside tokens
  | bracketed => exact sight_tail (inside tokens.tail)

theorem rest_of_slice {front xs rest : List Token} (ended : Ended (front ++ (xs ++ rest)))
    (slice : Slice xs) : rest ≠ [] := by
  rintro rfl
  obtain ⟨last, found, atEnd⟩ := Option.map_eq_some_iff.mp ended
  rw [List.append_nil, List.getLast?_append, List.getLast?_eq_some_getLast slice.some] at found
  cases found
  exact (slice.inner _ (List.getLast_mem slice.some)).1 atEnd

theorem index_drop {tokens xs rest : List Token} {start : Nat}
    (eq : tokens.drop start = xs ++ rest) (some : rest ≠ []) :
    Failure.index tokens rest = start + xs.length := by
  have lengths := congrArg List.length eq
  have positive := List.length_pos_iff.mpr some
  rw [List.length_drop, List.length_append] at lengths
  unfold Failure.index
  omega

theorem drop_of_agree {tokens other xs more : List Token} {token : Token} {start : Nat}
    (eq : tokens.drop start = xs ++ token :: more)
    (agree : ∀ k, start ≤ k → k ≤ start + xs.length → other[k]? = tokens[k]?) :
    ∃ more, other.drop start = xs ++ token :: more := by
  have same : (other.drop start).take (xs.length + 1) = xs ++ [token] := by
    apply List.ext_getElem?
    intro k
    by_cases within : k < xs.length + 1
    · rw [List.getElem?_take_of_lt within, List.getElem?_drop,
        agree (start + k) (Nat.le_add_right _ _) (by omega), ← List.getElem?_drop, eq,
        List.append_cons, List.getElem?_append_left (by simpa using within)]
    · rw [List.getElem?_eq_none (by simp; omega), List.getElem?_eq_none (by simp; omega)]
  refine ⟨(other.drop start).drop (xs.length + 1), ?_⟩
  rw [List.append_cons, ← same, List.take_append_drop]

/-- Wherever a part reads on in a line, it goes ahead, stops before the last token, takes a slice,
and looks at one token behind the slice at most. -/
theorem consume_takes_slice {room : Nat} {part : Part} {tokens : List Token} {start stop : Nat}
    {tree : Tree} (ended : Ended tokens)
    (first : part = .bracketed → Kind.next (tokens.drop start) = .bracketOpen)
    (done : part.consume room tokens start = .ok (tree, stop)) :
    start < stop ∧ stop ≤ tokens.length - 1 ∧ Slice ((tokens.take stop).drop start) ∧
      ∀ other, (∀ k, start ≤ k → k ≤ stop → other[k]? = tokens[k]?) →
        part.consume room other start = .ok (tree, stop) := by
  unfold Part.consume at done ⊢
  rcases read : part.read room (tokens.drop start) with failure | ⟨found, rest⟩
  · rw [read] at done
    cases done
  rw [read] at done
  cases done
  obtain ⟨xs, eq, slice⟩ := part_takes first read
  have some : rest ≠ [] := by
    rw [← List.take_append_drop start tokens, eq] at ended
    exact rest_of_slice ended slice
  have lengths := congrArg List.length eq
  rw [List.length_drop, List.length_append] at lengths
  have taken := List.length_pos_iff.mpr slice.some
  have left := List.length_pos_iff.mpr some
  have index : Failure.index tokens rest = start + xs.length := index_drop eq some
  rw [index]
  refine ⟨by omega, by omega, ?_, fun other agree => ?_⟩
  · rwa [List.drop_take, eq, Nat.add_sub_cancel_left, List.take_left]
  · obtain ⟨token, more, rfl⟩ := List.exists_cons_of_ne_nil some
    obtain ⟨others, begun⟩ := drop_of_agree eq agree
    have same : part.read room (tokens.drop start) = leaving (.ok found) (token :: more) := read
    have again := (part_sight room part _).settled eq same others
    rw [begun, again]
    exact congrArg (fun index => Except.ok (found, index))
      (index_drop begun (List.cons_ne_nil _ _))

theorem call_bracket_slice :
    let line : List Token := [⟨.number, "2"⟩, ⟨.star, "*"⟩, ⟨.identifier, "f"⟩, ⟨.bracketOpen, "("⟩,
      ⟨.minus, "-"⟩, ⟨.identifier, "x"⟩, ⟨.bracketClose, ")"⟩, ⟨.caret, "^"⟩, lineEnd]
    Ended line ∧ Kind.next (line.drop 3) = .bracketOpen ∧
      Part.bracketed.consume 1 line 3 = .ok (.unary .neg (.name "x"), 7) ∧
      Slice ((line.take 7).drop 3) := by
  intro line
  have ended : Ended line := rfl
  have first : Kind.next (line.drop 3) = .bracketOpen := rfl
  have done : Part.bracketed.consume 1 line 3 = .ok (.unary .neg (.name "x"), 7) :=
    ok_of_toOption (by decide +kernel)
  exact ⟨ended, first, done, (consume_takes_slice ended (fun _ => first) done).2.2.1⟩

end Positions
end Reckoner.Grammar

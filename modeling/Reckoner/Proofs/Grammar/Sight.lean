import Reckoner.Proofs.Acceptance

/- Readers look at one token behind what they take. What comes of some tokens in front of another
   one comes of them in front of that one again, whatever follows it. -/
namespace Reckoner.Grammar

def leaving (result : Except Cause Tree) (rest : List Token) : Outcome :=
  match result with
  | .ok tree => .ok (tree, rest)
  | .error cause => .error (.rejected cause rest)

theorem outcome_leaving (outcome : Outcome) :
    outcome = .error .tooDeep ∨ ∃ result rest, outcome = leaving result rest := by
  rcases outcome with (⟨cause, rest⟩ | _) | ⟨tree, rest⟩
  · exact .inr ⟨.error cause, rest, rfl⟩
  · exact .inl rfl
  · exact .inr ⟨.ok tree, rest, rfl⟩

theorem leaving_inj {result other : Except Cause Tree} {rest left : List Token}
    (same : leaving result rest = leaving other left) : result = other ∧ rest = left := by
  cases result <;> cases other <;> cases same <;> exact ⟨rfl, rfl⟩

theorem rejected_leaving {cause : Cause} {rest left : List Token} {result : Except Cause Tree}
    (same : .error (.rejected cause rest) = leaving result left) :
    result = .error cause ∧ left = rest := by
  cases result <;> cases same
  exact ⟨rfl, rfl⟩

theorem leaving_not_too_deep (result : Except Cause Tree) (rest : List Token) :
    leaving result rest ≠ .error .tooDeep := by
  cases result <;> simp [leaving]

/-- On these tokens the run leaves the end of them, and what comes of those before it is settled by
the first token that is left. -/
structure Sight (run : List Token → Outcome) (tokens : List Token) : Prop where
  suffix : ∀ {result rest}, run tokens = leaving result rest → rest <:+ tokens
  settled : ∀ {result xs token more}, tokens = xs ++ token :: more →
    run tokens = leaving result (token :: more) →
      ∀ other, run (xs ++ token :: other) = leaving result (token :: other)

section Sight

variable {run : List Token → Outcome} {tokens : List Token}

theorem sight_here (result : Except Cause Tree) (tokens : List Token) :
    Sight (leaving result) tokens where
  suffix same := by
    obtain ⟨_, rfl⟩ := leaving_inj same
    exact List.suffix_refl _
  settled := by
    intro result xs token more eq same other
    obtain ⟨rfl, rfl⟩ := leaving_inj same
    obtain rfl : xs = [] := List.self_eq_append_left.mp eq
    rfl

theorem sight_too_deep (tokens : List Token) : Sight (fun _ => .error .tooDeep) tokens where
  suffix same := absurd same.symm (leaving_not_too_deep _ _)
  settled _ same := absurd same.symm (leaving_not_too_deep _ _)

theorem settled_before (sight : Sight run tokens) {result : Except Cause Tree}
    {xs ys more : List Token} {token : Token} (eq : tokens = xs ++ token :: more)
    (same : run tokens = leaving result (ys ++ token :: more)) (other : List Token) :
    run (xs ++ token :: other) = leaving result (ys ++ token :: other) := by
  cases ys with
  | nil => exact sight.settled eq same other
  | cons first ys =>
    obtain ⟨us, split⟩ := sight.suffix same
    have before : xs = us ++ first :: ys := by
      have whole : us ++ first :: ys ++ token :: more = xs ++ token :: more := by
        rw [← eq, ← split, List.append_assoc]
      exact (List.append_cancel_right whole).symm
    subst before
    have again := sight.settled split.symm same (ys ++ token :: other)
    simpa using again

theorem rejected_suffix (sight : Sight run tokens) {cause : Cause} {rest : List Token}
    (rejected : run tokens = .error (.rejected cause rest)) : rest <:+ tokens :=
  have same : run tokens = leaving (.error cause) rest := rejected
  sight.suffix same

theorem rejected_settled (sight : Sight run tokens) {cause : Cause} {xs more : List Token}
    {token : Token} (eq : tokens = xs ++ token :: more)
    (rejected : run tokens = .error (.rejected cause (token :: more))) (other : List Token) :
    run (xs ++ token :: other) = .error (.rejected cause (token :: other)) :=
  have same : run tokens = leaving (.error cause) (token :: more) := rejected
  sight.settled eq same other

theorem sight_bind (next : Tree → List Token → Outcome) (first : Sight run tokens)
    (after : ∀ tree rest, run tokens = .ok (tree, rest) → Sight (next tree) rest) :
    Sight (fun tokens => run tokens >>= fun done => next done.1 done.2) tokens where
  suffix := by
    intro result rest same
    rcases outcome_leaving (run tokens) with deep | ⟨cause | tree, left, read⟩
    · rw [deep] at same
      exact absurd same.symm (leaving_not_too_deep _ _)
    · have whole := first.suffix read
      rw [read] at same
      obtain ⟨_, rfl⟩ := rejected_leaving same
      exact whole
    · have whole := first.suffix read
      rw [read] at same
      exact ((after tree left read).suffix same).trans whole
  settled := by
    intro result xs token more eq same other
    rcases outcome_leaving (run tokens) with deep | ⟨cause | tree, left, read⟩
    · rw [deep] at same
      exact absurd same.symm (leaving_not_too_deep _ _)
    · rw [read] at same
      obtain ⟨rfl, rfl⟩ := rejected_leaving same
      rw [first.settled eq read other]
      rfl
    · rw [read] at same
      obtain ⟨ys, rfl⟩ := (after tree left read).suffix same
      rw [settled_before first eq read other]
      exact (after tree _ read).settled rfl same other

theorem sight_of_first {whole : List Token → Outcome}
    (same : ∀ other, other.head? = tokens.head? → whole other = run other)
    (sight : Sight run tokens) : Sight whole tokens where
  suffix read := by
    rw [same tokens rfl] at read
    exact sight.suffix read
  settled := by
    intro result xs token more eq read other
    rw [same tokens rfl] at read
    have first : (xs ++ token :: other).head? = tokens.head? := by
      rw [eq]
      cases xs <;> rfl
    rw [same _ first]
    exact sight.settled eq read other

theorem sight_tail (inside : Sight run tokens.tail) :
    Sight (fun tokens => run tokens.tail) tokens where
  suffix same := (inside.suffix same).trans (List.tail_suffix tokens)
  settled := by
    rintro result xs token more rfl same other
    cases xs with
    | nil =>
      have long := (inside.suffix same).length_le
      simp only [List.nil_append, List.tail_cons, List.length_cons] at long
      omega
    | cons x xs => exact inside.settled rfl same other

theorem sight_with_tree (f : Tree → Tree) (sight : Sight run tokens) :
    Sight (fun tokens => withTree f (run tokens)) tokens := by
  have same : (fun tokens => withTree f (run tokens)) =
      fun tokens => run tokens >>= fun done => leaving (.ok (f done.1)) done.2 := by
    funext tokens
    cases run tokens <;> rfl
  rw [same]
  exact sight_bind (fun tree => leaving (.ok (f tree))) sight
    fun tree rest _ => sight_here _ rest

end Sight

theorem next_of_head {tokens other : List Token} (first : other.head? = tokens.head?) :
    Kind.next other = Kind.next tokens := by
  cases tokens <;> cases other <;> simp_all [Kind.next]

def Sighted (reader : Reader) : Prop := ∀ tokens, Sight reader.read tokens

theorem closing_leaving (tree : Tree) (rest : List Token) :
    closing (tree, rest) =
      if Kind.next rest = .bracketClose then leaving (.ok tree) rest.tail
      else leaving (.error .bracketUnclosed) rest := by
  rcases rest with _ | ⟨⟨kind, lexeme⟩, rest⟩
  · rfl
  · cases kind <;> rfl

theorem sight_closing (tree : Tree) (rest : List Token) :
    Sight (fun rest => closing (tree, rest)) rest := by
  by_cases closes : Kind.next rest = .bracketClose
  · refine sight_of_first (fun other first => ?_) (sight_tail (sight_here (.ok tree) rest.tail))
    rw [closing_leaving, next_of_head first, if_pos closes]
  · refine sight_of_first (fun other first => ?_) (sight_here (.error .bracketUnclosed) rest)
    rw [closing_leaving, next_of_head first, if_neg closes]

theorem sighted_enclosed {inner : Reader} (sighted : Sighted inner) :
    Sighted (.enclosed inner) := by
  intro tokens
  by_cases empty : Kind.next tokens = .bracketClose
  · refine sight_of_first (fun other first => ?_) (sight_here (.error .bracketEmpty) tokens)
    rw [enclosed_read, next_of_head first, if_pos empty]
    rfl
  · refine sight_of_first (fun other first => ?_)
      (sight_bind (fun tree rest => closing (tree, rest)) (sighted tokens)
        fun tree rest _ => sight_closing tree rest)
    rw [enclosed_read, next_of_head first, if_neg empty]

theorem named_read (bracket : Reader) (lexeme : String) (rest : List Token) :
    (Reader.atom bracket).read (⟨.identifier, lexeme⟩ :: rest) =
      if Kind.next rest = .bracketOpen ∧ Token.isFunctionName lexeme then
        withTree (.call lexeme) (bracket.read rest.tail)
      else leaving (.ok (.name lexeme)) rest := by
  rcases rest with _ | ⟨⟨kind, sign⟩, inside⟩
  · rfl
  by_cases function : Token.isFunctionName lexeme
  · cases kind with
    | bracketOpen =>
      rw [call_read bracket function, if_pos ⟨rfl, function⟩]
      rfl
    | _ => simp [Reader.atom, Kind.next, leaving]
  · rw [if_neg fun both => function both.2]
    cases kind with
    | bracketOpen => simp only [Reader.atom, if_neg function, leaving]
    | _ => rfl

theorem sight_named {bracket : Reader} (sighted : Sighted bracket) (lexeme : String)
    (rest : List Token) :
    Sight (fun rest => (Reader.atom bracket).read (⟨.identifier, lexeme⟩ :: rest)) rest := by
  by_cases call : Kind.next rest = .bracketOpen ∧ Token.isFunctionName lexeme
  · refine sight_of_first (fun other first => ?_)
      (sight_with_tree (.call lexeme) (sight_tail (sighted rest.tail)))
    rw [named_read, next_of_head first, if_pos call]
  · refine sight_of_first (fun other first => ?_) (sight_here (.ok (.name lexeme)) rest)
    rw [named_read, next_of_head first, if_neg call]

theorem sighted_atom {bracket : Reader} (sighted : Sighted bracket) : Sighted (.atom bracket) := by
  intro tokens
  rcases tokens with _ | ⟨⟨kind, lexeme⟩, tokens⟩
  · refine sight_of_first (fun other first => ?_) (sight_here (.error .operandMissing) [])
    rw [List.head?_eq_none_iff.mp first]
    rfl
  -- lists with the same first token differ in what follows it only
  have begun : ∀ {run : List Token → Outcome}, Sight run (⟨kind, lexeme⟩ :: tokens) →
      (∀ more, (Reader.atom bracket).read (⟨kind, lexeme⟩ :: more) =
        run (⟨kind, lexeme⟩ :: more)) →
        Sight (Reader.atom bracket).read (⟨kind, lexeme⟩ :: tokens) := by
    intro run sight same
    refine sight_of_first (fun other first => ?_) sight
    obtain ⟨more, rfl⟩ := List.head?_eq_some_iff.mp first
    exact same more
  cases kind with
  | number =>
    exact begun (sight_tail (sight_here (.ok (Reader.literal lexeme)) tokens)) fun _ => rfl
  | identifier => exact begun (sight_tail (sight_named sighted lexeme tokens)) fun _ => rfl
  | bracketOpen => exact begun (sight_tail (sighted tokens)) fun _ => rfl
  | lineEnd => exact begun (sight_here (.error .operandMissing) _) fun _ => rfl
  | _ => exact begun (sight_here (.error (.operandExpected _)) _) fun _ => rfl

theorem sighted_chain_from (level : List Op) {operand : Reader} (sighted : Sighted operand)
    (left : Tree) (tokens : List Token) :
    Sight (Reader.chainFrom level operand left) tokens := by
  -- an operand takes a token at least, so the chain goes on with fewer of them
  induction size : tokens.length using Nat.strongRecOn generalizing left tokens with
  | ind size ih =>
    rcases tokens with _ | ⟨token, rest⟩
    · refine sight_of_first (fun other first => ?_) (sight_here (.ok left) [])
      rw [List.head?_eq_none_iff.mp first, Reader.chainFrom]
      rfl
    · cases joins : token.kind.joining? level with
      | none =>
        refine sight_of_first (fun other first => ?_) (sight_here (.ok left) _)
        obtain ⟨more, rfl⟩ := List.head?_eq_some_iff.mp first
        rw [chain_from_cons, joins]
        rfl
      | some op =>
        refine sight_of_first (fun other first => ?_) (sight_tail (sight_bind
          (fun right => Reader.chainFrom level operand (.binary op left right)) (sighted rest)
          fun right after read => ih after.length ?_ (.binary op left right) after rfl))
        · obtain ⟨more, rfl⟩ := List.head?_eq_some_iff.mp first
          rw [chain_from_cons, joins]
          rfl
        · have shorter := operand.consumes read
          simp only [List.tail_cons] at shorter
          simp only [List.length_cons] at size
          omega

theorem sighted_chain (level : List Op) {operand : Reader} (sighted : Sighted operand) :
    Sighted (.chain level operand) := by
  intro tokens
  have same : (Reader.chain level operand).read = _ := funext (chain_read level operand)
  rw [same]
  exact sight_bind (Reader.chainFrom level operand) (sighted tokens)
    fun first rest _ => sighted_chain_from level sighted first rest

theorem sighted_signed {sum : Reader} (sighted : Sighted sum) : Sighted (.signed sum) := by
  intro tokens
  cases known : (Kind.next tokens).sign? with
  | none =>
    refine sight_of_first (fun other first => ?_) (sighted tokens)
    rw [signed_read, next_of_head first, known]
  | some op =>
    refine sight_of_first (fun other first => ?_)
      (sight_with_tree (.unary op) (sight_tail (sighted tokens.tail)))
    rw [signed_read, next_of_head first, known]

theorem sighted_operand (levels : List (List Op)) {bracket : Reader} (sighted : Sighted bracket) :
    Sighted (.operand levels bracket) := by
  induction levels with
  | nil => exact sighted_atom sighted
  | cons level levels ih => exact sighted_chain level ih

theorem sighted_of_inside {room : Nat} (sighted : Sighted (bracket room)) (phrase : Phrase) :
    Sighted (reader room phrase) := by
  cases phrase with
  | expression =>
    rw [reader_expression]
    exact sighted_signed (sighted_operand _ sighted)
  | atom => exact sighted_atom sighted
  | _ => exact sighted_operand _ sighted

theorem sighted_bracket (room : Nat) : Sighted (bracket room) := by
  induction room with
  | zero => exact sighted_enclosed sight_too_deep
  | succ room ih => exact sighted_enclosed (sighted_of_inside ih .expression)

theorem sighted_reader (room : Nat) (phrase : Phrase) : Sighted (reader room phrase) :=
  sighted_of_inside (sighted_bracket room) phrase

end Reckoner.Grammar

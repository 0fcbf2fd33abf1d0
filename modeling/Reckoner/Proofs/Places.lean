import Reckoner.Proofs.Evaluation
import Reckoner.Proofs.Reading

/- Reading lines by the places of their tokens, where every look at a token is checked, and so is
   all else that could go wrong with one. On lines that end nothing of this does go wrong: reading
   by places comes to what the readers come to, and rejects at a place on the line. -/
namespace Reckoner
open Grammar Token

/-- What should never come of a line: a look at a place that it does not have, an operator between
operands that has no level, and the number of a text that is none. -/
inductive Mishap
  | outside (place : Nat)
  | noLevel (op : Op)
  | noNumber (lexeme : String)
  deriving DecidableEq, Repr

inductive Stop
  | mishap (mishap : Mishap)
  | rejected (cause : Cause) (place : Nat)
  | tooDeep
  deriving DecidableEq, Repr

structure Walker where
  read : Nat → Except Stop (Tree × Nat)
  advances : ∀ {place tree next}, read place = .ok (tree, next) → place < next

namespace Walker

section Walkers

variable (tokens : List Token)

def look (place : Nat) : Except Stop Token :=
  match tokens[place]? with
  | none => .error (.mishap (.outside place))
  | some token => .ok token

def numeral (lexeme : String) : Except Stop Tree :=
  if Lexeme.longest? lexeme.toList = some ⟨.number, lexeme.toList, []⟩ then
    .ok (Reader.literal lexeme)
  else .error (.mishap (.noNumber lexeme))

def joining (precedence : Nat) (kind : Kind) : Except Stop (Option Op) :=
  match kind.binary? with
  | none => .ok none
  | some op =>
    match op.level? with
    | none => .error (.mishap (.noLevel op))
    | some level => .ok (if level = precedence then some op else none)

def tooDeep : Walker where
  read _ := .error .tooDeep
  advances := by simp

def bracketed (inner : Walker) : Walker where
  read place :=
    look tokens (place + 1) >>= fun second =>
      if second.kind = .bracketClose then .error (.rejected .bracketEmpty (place + 1))
      else inner.read (place + 1) >>= fun done =>
        look tokens done.2 >>= fun last =>
          if last.kind = .bracketClose then .ok (done.1, done.2 + 1)
          else .error (.rejected .bracketUnclosed done.2)
  advances := by
    intro place tree next done
    obtain ⟨second, _, done⟩ := ok_of_bind done
    split at done
    · cases done
    · obtain ⟨⟨inside, after⟩, read, done⟩ := ok_of_bind done
      obtain ⟨last, _, done⟩ := ok_of_bind done
      have further := inner.advances read
      split at done
      · cases done
        simp only
        omega
      · cases done

def atom (bracket : Walker) : Walker where
  read place :=
    look tokens place >>= fun first =>
      match first.kind with
      | .number => numeral first.lexeme >>= fun tree => .ok (tree, place + 1)
      | .identifier =>
        look tokens (place + 1) >>= fun second =>
          if second.kind = .bracketOpen ∧ Token.isFunctionName first.lexeme then
            bracket.read (place + 1) >>= fun done => .ok (.call first.lexeme done.1, done.2)
          else .ok (.name first.lexeme, place + 1)
      | .bracketOpen => bracket.read place
      | .lineEnd => .error (.rejected .operandMissing place)
      | kind => .error (.rejected (.operandExpected kind) place)
  advances := by
    intro place tree next done
    obtain ⟨first, _, done⟩ := ok_of_bind done
    split at done
    · obtain ⟨value, _, done⟩ := ok_of_bind done
      cases done
      omega
    · obtain ⟨second, _, done⟩ := ok_of_bind done
      split at done
      · obtain ⟨⟨argument, after⟩, read, done⟩ := ok_of_bind done
        have further := bracket.advances read
        cases done
        simp only
        omega
      · cases done
        omega
    · exact bracket.advances done
    · cases done
    · cases done

theorem look_inside {place : Nat} {token : Token} (found : look tokens place = .ok token) :
    place < tokens.length := by
  unfold look at found
  split at found
  · cases found
  · rename_i here
    exact (List.getElem?_eq_some_iff.mp here).1

def chainFrom (precedence : Nat) (operand : Walker) (left : Tree) (place : Nat) :
    Except Stop (Tree × Nat) :=
  match _found : look tokens place with
  | .error stop => .error stop
  | .ok token =>
    match joining precedence token.kind with
    | .error stop => .error stop
    | .ok none => .ok (left, place)
    | .ok (some op) =>
      match _read : operand.read (place + 1) with
      | .error stop => .error stop
      | .ok (right, after) => chainFrom precedence operand (.binary op left right) after
termination_by tokens.length - place
decreasing_by
  have inside := look_inside tokens _found
  have further := operand.advances _read
  omega

theorem chain_from_advances (precedence : Nat) (operand : Walker) (left : Tree) (place : Nat)
    {tree : Tree} {next : Nat}
    (done : chainFrom tokens precedence operand left place = .ok (tree, next)) : place ≤ next := by
  fun_induction chainFrom tokens precedence operand left place with
  | case1 => cases done
  | case2 => cases done
  | case3 =>
    cases done
    exact Nat.le_refl _
  | case4 => cases done
  | case5 left place token found op joins right after read ih =>
    have further := operand.advances read
    have later := ih done
    omega

def chain (precedence : Nat) (operand : Walker) : Walker where
  read place :=
    operand.read place >>= fun done => chainFrom tokens precedence operand done.1 done.2
  advances := by
    intro place tree next done
    obtain ⟨⟨first, after⟩, read, done⟩ := ok_of_bind done
    have further := operand.advances read
    have later := chain_from_advances tokens precedence operand first after done
    omega

def operand (bracket : Walker) : Walker :=
  (List.range Op.levels.length).foldr (chain tokens) (atom tokens bracket)

def signed (sum : Walker) : Walker where
  read place :=
    look tokens place >>= fun first =>
      match first.kind.sign? with
      | none => sum.read place
      | some op => sum.read (place + 1) >>= fun done => .ok (.unary op done.1, done.2)
  advances := by
    intro place tree next done
    obtain ⟨first, _, done⟩ := ok_of_bind done
    split at done
    · exact sum.advances done
    · obtain ⟨⟨inside, after⟩, read, done⟩ := ok_of_bind done
      have further := sum.advances read
      cases done
      simp only
      omega

def expression : (room : Nat) → Walker
  | 0 => signed tokens (operand tokens (bracketed tokens tooDeep))
  | room + 1 => signed tokens (operand tokens (bracketed tokens (expression room)))

def whole (room : Nat) (place : Nat) : Except Stop Tree :=
  (expression tokens room).read place >>= fun done =>
    look tokens done.2 >>= fun last =>
      if last.kind = .lineEnd then .ok done.1
      else .error (.rejected (.trailing last.kind) done.2)

def statement (room : Nat) : Except Stop Tree :=
  if tokens.getLast?.map (·.kind) ≠ some .lineEnd then .error (.rejected .unended tokens.length)
  else if 2 < tokens.length then
    look tokens 0 >>= fun first => look tokens 1 >>= fun second =>
      if first.kind = .identifier ∧ second.kind = .equal then
        (whole tokens room 2).map (.assign first.lexeme)
      else whole tokens room 0
  else whole tokens room 0

end Walkers

end Walker

def Failure.stop (tokens : List Token) : Failure → Stop
  | .rejected cause rest => .rejected cause (Failure.index tokens rest)
  | .tooDeep => .tooDeep

def located (tokens : List Token) : Outcome → Except Stop (Tree × Nat)
  | .error failure => .error (failure.stop tokens)
  | .ok (tree, rest) => .ok (tree, Failure.index tokens rest)

def placed (tokens : List Token) : Except Failure Tree → Except Stop Tree
  | .error failure => .error (failure.stop tokens)
  | .ok tree => .ok tree

theorem placed_not_mishap (tokens : List Token) (outcome : Except Failure Tree) (mishap : Mishap) :
    placed tokens outcome ≠ .error (.mishap mishap) := by
  rcases outcome with (⟨cause, rest⟩ | _) | tree <;> simp [placed, Failure.stop]

theorem placed_rejected {tokens : List Token} {outcome : Except Failure Tree} {cause : Cause}
    {place : Nat} (rejected : placed tokens outcome = .error (.rejected cause place)) :
    ∃ rest, outcome = .error (.rejected cause rest) ∧ place = Failure.index tokens rest := by
  rcases outcome with (⟨cause, rest⟩ | _) | tree
  · cases rejected
    exact ⟨rest, rfl, rfl⟩
  · cases rejected
  · cases rejected

namespace Failure

theorem index_cons {tokens rest : List Token} {token : Token} (suffix : token :: rest <:+ tokens) :
    index tokens (token :: rest) + 1 = index tokens rest := by
  have fits := suffix.length_le
  simp only [index, List.length_cons] at fits ⊢
  omega

end Failure

theorem suffix_tail {tokens rest : List Token} {token : Token} (suffix : token :: rest <:+ tokens) :
    rest <:+ tokens :=
  (List.suffix_cons token rest).trans suffix

namespace Walker

variable {tokens : List Token}

theorem look_bind {α : Type} {token : Token} {rest : List Token} (suffix : token :: rest <:+ tokens)
    (next : Token → Except Stop α) :
    (look tokens (Failure.index tokens (token :: rest)) >>= next) = next token := by
  have found : look tokens (Failure.index tokens (token :: rest)) = .ok token := by
    obtain ⟨xs, rfl⟩ := suffix
    rw [Failure.index_append, look, List.getElem?_append_right (Nat.le_refl _), Nat.sub_self]
    rfl
  rw [found]
  rfl

theorem numeral_shaped {token : Token} (shaped : token.Shaped) (number : token.kind = .number) :
    numeral token.lexeme = .ok (Reader.literal token.lexeme) := by
  rcases shaped with rfl | shape
  · cases number
  · rw [number] at shape
    have read := Lexeme.longest_of_shape shape (Lexeme.clear_ends Lexeme.clear_nil _ _)
    rw [List.append_nil] at read
    exact if_pos read

theorem joining_eq {chain phrase : Phrase} (operands : Operands chain phrase) (kind : Kind) :
    joining (3 - chain.rank) kind = .ok (kind.joining? (level chain)) := by
  cases operands <;> cases kind <;> rfl

theorem chain_from_look (precedence : Nat) (operand : Walker) (left : Tree) (place : Nat) :
    chainFrom tokens precedence operand left place =
      look tokens place >>= fun token => joining precedence token.kind >>= fun joins =>
        match joins with
        | none => .ok (left, place)
        | some op => operand.read (place + 1) >>= fun done =>
            chainFrom tokens precedence operand (.binary op left done.1) done.2 := by
  rw [chainFrom]
  split
  · rename_i outside
    rw [outside]
    rfl
  · rename_i token found
    rw [found]
    simp only [bind, Except.bind]
    cases joining precedence token.kind with
    | error stop => rfl
    | ok joins =>
      cases joins with
      | none => rfl
      | some op =>
        simp only
        split <;> rename_i read <;> rw [read]

/-- From the tokens that are left, the walker comes to what the reader comes to. -/
def Follows (tokens : List Token) (walker : Walker) (reader : Reader) : Prop :=
  ∀ rest, rest <:+ tokens → Ended rest →
    walker.read (Failure.index tokens rest) = located tokens (reader.read rest)

def FollowsInside (tokens : List Token) (walker : Walker) (reader : Reader) : Prop :=
  ∀ opening rest, Token.kind opening = .bracketOpen → opening :: rest <:+ tokens → Ended rest →
    walker.read (Failure.index tokens (opening :: rest)) = located tokens (reader.read rest)

theorem located_bind {outcome : Outcome} {next : Tree × List Token → Outcome}
    {further : Tree × Nat → Except Stop (Tree × Nat)}
    (same : ∀ tree after, outcome = .ok (tree, after) →
      further (tree, Failure.index tokens after) = located tokens (next (tree, after))) :
    (located tokens outcome >>= further) = located tokens (outcome >>= next) := by
  cases outcome with
  | error failure => rfl
  | ok done => exact same done.1 done.2 rfl

theorem located_with_tree (f : Tree → Tree) (outcome : Outcome) :
    (located tokens outcome >>= fun done => .ok (f done.1, done.2)) =
      located tokens (withTree f outcome) := by
  cases outcome <;> rfl

theorem closing_cons (tree : Tree) (last : Token) (rest : List Token) :
    closing (tree, last :: rest) =
      if last.kind = .bracketClose then .ok (tree, rest)
      else .error (.rejected .bracketUnclosed (last :: rest)) := by
  obtain ⟨kind, lexeme⟩ := last
  cases kind <;> rfl

theorem stays {room : Nat} (phrase : Phrase) {rest after : List Token} {tree : Tree}
    (read : (reader room phrase).read rest = .ok (tree, after)) (suffix : rest <:+ tokens)
    (ended : Ended rest) : after <:+ tokens ∧ Ended after := by
  rcases cuts_reader (Nat.le_refl room) phrase rest with
    @⟨xs, behind, other, rfl, noEnd, _, _, small, _⟩ | ⟨_, _, _, small, _⟩ | ⟨_, _, _, small, _⟩
  · rw [small] at read
    cases read
    exact ⟨(List.suffix_append xs after).trans suffix, ended_rest ended noEnd⟩
  · rw [small] at read
    cases read
  · rw [small] at read
    cases read

theorem follows_bracketed {inner : Walker} {reader : Reader} (follows : Follows tokens inner reader)
    (stays : ∀ {rest after : List Token} {tree : Tree}, reader.read rest = .ok (tree, after) →
      rest <:+ tokens → Ended rest → after <:+ tokens ∧ Ended after) :
    FollowsInside tokens (bracketed tokens inner) (.enclosed reader) := by
  intro opening rest first suffix ended
  have inside := suffix_tail suffix
  have same := follows rest inside ended
  obtain ⟨second, behind, rfl⟩ := ended_cons ended
  simp only [bracketed]
  rw [Failure.index_cons suffix, look_bind inside, enclosed_read, Kind.next]
  by_cases empty : second.kind = .bracketClose
  · rw [if_pos empty, if_pos empty]
    rfl
  · rw [if_neg empty, if_neg empty, same]
    apply located_bind
    intro tree after read
    obtain ⟨left, more⟩ := stays read inside ended
    obtain ⟨last, further, rfl⟩ := ended_cons more
    rw [look_bind left, closing_cons]
    by_cases closes : last.kind = .bracketClose
    · rw [if_pos closes, if_pos closes, Failure.index_cons left]
      rfl
    · rw [if_neg closes, if_neg closes]
      rfl

theorem follows_atom {walker : Walker} {inside : Reader}
    (shaped : ∀ token ∈ tokens, token.Shaped) (follows : FollowsInside tokens walker inside) :
    Follows tokens (atom tokens walker) (.atom inside) := by
  intro rest suffix ended
  obtain ⟨⟨kind, lexeme⟩, behind, rfl⟩ := ended_cons ended
  have here := shaped ⟨kind, lexeme⟩ (suffix.subset List.mem_cons_self)
  have after := suffix_tail suffix
  simp only [atom]
  rw [look_bind suffix]
  cases kind with
  | number =>
    simp only [numeral_shaped here rfl, Failure.index_cons suffix]
    rfl
  | identifier =>
    have more := ended_tail ended (by simp)
    obtain ⟨⟨kind, sign⟩, further, rfl⟩ := ended_cons more
    simp only
    rw [Failure.index_cons suffix, look_bind after]
    by_cases call : kind = .bracketOpen ∧ Token.isFunctionName lexeme
    · obtain ⟨rfl, function⟩ := call
      have argument := follows ⟨.bracketOpen, sign⟩ further rfl after (ended_tail more (by simp))
      rw [if_pos ⟨rfl, function⟩, call_read inside function, argument]
      exact located_with_tree (.call lexeme) _
    · rw [if_neg call]
      have name : (Reader.atom inside).read (⟨.identifier, lexeme⟩ :: ⟨kind, sign⟩ :: further) =
          .ok (.name lexeme, ⟨kind, sign⟩ :: further) := by
        cases kind with
        | bracketOpen =>
          have other : ¬ Token.isFunctionName lexeme := fun function => call ⟨rfl, function⟩
          simp only [Reader.atom, if_neg other]
        | _ => rfl
      rw [name]
      rfl
  | bracketOpen => exact follows _ behind rfl suffix (ended_tail ended (by simp))
  | lineEnd => rfl
  | _ => rfl

theorem follows_chain_from {chain phrase : Phrase} (operands : Operands chain phrase) {room : Nat}
    {operand : Walker} (follows : Follows tokens operand (reader room phrase)) (left : Tree)
    {rest : List Token} (suffix : rest <:+ tokens) (ended : Ended rest) :
    chainFrom tokens (3 - chain.rank) operand left (Failure.index tokens rest) =
      located tokens (Reader.chainFrom (level chain) (reader room phrase) left rest) := by
  -- every operand takes a token at least, and leaves the end of the line
  induction size : rest.length using Nat.strongRecOn generalizing left rest with
  | ind size ih =>
    obtain ⟨token, behind, rfl⟩ := ended_cons ended
    rw [chain_from_look, look_bind suffix, joining_eq operands, chain_from_cons]
    cases joins : token.kind.joining? (level chain) with
    | none => rfl
    | some op =>
      have kind := joint_kind ((joining_iff operands token.kind op).mp joins)
      have inside := suffix_tail suffix
      have more := ended_tail ended kind.1.1
      simp only [bind, Except.bind]
      rw [Failure.index_cons suffix, follows behind inside more]
      apply located_bind
      intro right after read
      obtain ⟨later, lasting⟩ := stays phrase read inside more
      have shorter := (reader room phrase).consumes read
      simp only [List.length_cons] at size
      exact ih after.length (by omega) _ later lasting rfl

theorem follows_chain {chain phrase : Phrase} (operands : Operands chain phrase) {room : Nat}
    {operand : Walker} (follows : Follows tokens operand (reader room phrase)) :
    Follows tokens (.chain tokens (3 - chain.rank) operand) (reader room chain) := by
  intro rest suffix ended
  simp only [Walker.chain]
  rw [reader_chain operands, chain_read, follows rest suffix ended]
  apply located_bind
  intro first after read
  obtain ⟨later, more⟩ := stays phrase read suffix ended
  exact follows_chain_from operands follows first later more

theorem follows_signed {room : Nat} {sum : Walker}
    (follows : Follows tokens sum (reader room .sum)) :
    Follows tokens (signed tokens sum) (reader room .expression) := by
  intro rest suffix ended
  obtain ⟨token, behind, rfl⟩ := ended_cons ended
  simp only [signed]
  rw [reader_expression, look_bind suffix, signed_read, Kind.next]
  cases known : token.kind.sign? with
  | none => exact follows _ suffix ended
  | some op =>
    have kind := sign_kind ((sign_iff token.kind op).mp known)
    have more := ended_tail ended kind.1.1
    simp only
    rw [Failure.index_cons suffix, follows behind (suffix_tail suffix) more]
    exact located_with_tree (.unary op) _

theorem follows_of_inside (room : Nat) {walker : Walker}
    (shaped : ∀ token ∈ tokens, token.Shaped)
    (inside : FollowsInside tokens walker (bracket room)) :
    Follows tokens (signed tokens (operand tokens walker)) (reader room .expression) := by
  have atom : Follows tokens (.atom tokens walker) (reader room .atom) := follows_atom shaped inside
  have power := follows_chain .power atom
  have product := follows_chain .product power
  have sum := follows_chain .sum product
  exact follows_signed sum

theorem follows_expression (shaped : ∀ token ∈ tokens, token.Shaped) (room : Nat) :
    Follows tokens (expression tokens room) (reader room .expression) := by
  induction room with
  | zero =>
    have nothing : Follows tokens tooDeep .tooDeep := fun _ _ _ => rfl
    exact follows_of_inside 0 shaped (follows_bracketed nothing fun read => by cases read)
  | succ room ih =>
    exact follows_of_inside (room + 1) shaped (follows_bracketed ih (stays .expression))

theorem whole_follows (shaped : ∀ token ∈ tokens, token.Shaped) (room : Nat) {rest : List Token}
    (suffix : rest <:+ tokens) (ended : Ended rest) :
    whole tokens room (Failure.index tokens rest) =
      placed tokens (Reader.wholeExpression room rest) := by
  have same := follows_expression shaped room rest suffix ended
  rw [whole, same, Reader.wholeExpression, reader]
  cases read : (Reader.expression room).read rest with
  | error failure => rfl
  | ok done =>
    obtain ⟨tree, after⟩ := done
    obtain ⟨left, more⟩ := stays .expression read suffix ended
    obtain ⟨last, behind, rfl⟩ := ended_cons more
    change (look tokens (Failure.index tokens (last :: behind)) >>= _) =
      placed _ (if last.kind = .lineEnd then _ else _)
    rw [look_bind left]
    by_cases atEnd : last.kind = .lineEnd
    · rw [if_pos atEnd, if_pos atEnd]
      rfl
    · rw [if_neg atEnd, if_neg atEnd]
      rfl

/-- On a line that ends, reading by places comes to the same tree or rejects at the place of the
same token, and comes to nothing else. -/
theorem statement_follows (ended : Ended tokens) (shaped : ∀ token ∈ tokens, token.Shaped)
    (room : Nat) :
    statement tokens room = placed tokens (Reader.statement room tokens) := by
  have last : ¬ tokens.getLast?.map (·.kind) ≠ some .lineEnd := not_not_intro ended
  by_cases form : ∃ name sign rest, tokens = ⟨.identifier, name⟩ :: ⟨.equal, sign⟩ :: rest
  · obtain ⟨name, sign, rest, rfl⟩ := form
    have more := ended_tail (ended_tail ended (by simp)) (by simp)
    have suffix : rest <:+ ⟨.identifier, name⟩ :: ⟨.equal, sign⟩ :: rest :=
      suffix_tail (suffix_tail (List.suffix_refl _))
    have value := whole_follows shaped room suffix more
    obtain ⟨third, behind, rfl⟩ := ended_cons more
    have long : 2 < (⟨.identifier, name⟩ :: ⟨.equal, sign⟩ :: third :: behind).length := by simp
    have place : Failure.index (⟨.identifier, name⟩ :: ⟨.equal, sign⟩ :: third :: behind)
        (third :: behind) = 2 := by simp [Failure.index]
    rw [place] at value
    rw [Reader.statement_assignment room ended, statement, if_neg last, if_pos long]
    change (whole _ room 2).map _ = _
    rw [value]
    cases Reader.wholeExpression room (third :: behind) <;> rfl
  · have value := whole_follows shaped room (List.suffix_refl tokens) ended
    have place : Failure.index tokens tokens = 0 := Nat.sub_self _
    rw [place] at value
    have other : ∀ name sign rest, tokens ≠ ⟨.identifier, name⟩ :: ⟨.equal, sign⟩ :: rest :=
      fun name sign rest eq => form ⟨name, sign, rest, eq⟩
    rw [Reader.statement_expression room ended other, statement, if_neg last, ← value]
    by_cases long : 2 < tokens.length
    · rw [if_pos long]
      rcases tokens with _ | ⟨⟨kind, name⟩, _ | ⟨⟨sign, text⟩, rest⟩⟩
      · simp at long
      · simp at long
      · have differs : ¬ (kind = .identifier ∧ sign = .equal) := by
          rintro ⟨rfl, rfl⟩
          exact other _ _ _ rfl
        change (if kind = .identifier ∧ sign = .equal then _ else _) = _
        rw [if_neg differs]
    · rw [if_neg long]

end Walker

theorem rejected_inside {tokens rest : List Token} {cause : Cause} {room : Nat}
    (ended : Ended tokens)
    (rejected : Reader.statement room tokens = .error (.rejected cause rest)) :
    Failure.index tokens rest < tokens.length := by
  rw [Reader.statement_line room ended] at rejected
  rcases Reader.cut_line (Nat.le_refl room) tokens with ⟨_, _, _, _, small, _⟩ |
    @⟨xs, left, other, rfl, noEnd, _, small, _⟩ | ⟨_, _, _, small, _⟩
  · rw [small] at rejected
    cases rejected
  · rw [small] at rejected
    cases rejected
    obtain ⟨token, behind, rfl⟩ := ended_cons (ended_rest ended noEnd)
    rw [Failure.index_append, List.length_append, List.length_cons]
    omega
  · rw [small] at rejected
    cases rejected

end Reckoner

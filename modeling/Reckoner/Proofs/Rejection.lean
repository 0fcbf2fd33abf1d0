import Reckoner.Proofs.Grammar.Sight
import Reckoner.Proofs.Grammar.Spoiled

/- Lines that are rejected. The wrong token is the first that no line begins with, whatever stands
   behind it, and the cause can be told from the brackets that are open before it and from the
   tokens on both sides of that place. -/
namespace Reckoner
open Grammar Token

namespace Reader

section Lines

variable {limit : Nat} {tokens rest : List Token} {cause : Cause}

theorem ending_rejected {tree : Tree} {after : List Token}
    (rejected : ending (tree, after) = .error (.rejected cause rest)) :
    rest = after ∧ cause = .trailing (Kind.next after) ∧ Kind.next after ≠ .lineEnd := by
  unfold ending at rejected
  split at rejected
  · cases rejected
  · cases rejected
    exact ⟨rfl, rfl, by assumption⟩

theorem spoiled_or_trailing (shaped : ∀ token ∈ tokens, token.Shaped)
    (rejected : ((expression limit).read tokens >>= ending) = .error (.rejected cause rest)) :
    ∃ xs, tokens = xs ++ rest ∧
      (Spoiled .expression xs (Kind.next rest) cause ∨
        ∃ tree, Derives .expression xs tree ∧ cause = .trailing (Kind.next rest) ∧
          Kind.next rest ≠ .lineEnd) := by
  rcases rejected_of_bind rejected with inside | ⟨tree, after, read, behind⟩
  · obtain ⟨xs, eq, spoiled⟩ := explained_reader limit .expression shaped inside
    exact ⟨xs, eq, .inl spoiled⟩
  · obtain ⟨rfl, reason, more⟩ := ending_rejected behind
    obtain ⟨xs, eq, derives, _⟩ := sound_reader limit .expression shaped read
    exact ⟨xs, eq, .inr ⟨tree, derives, reason, more⟩⟩

theorem wrong_of_rejected (shaped : ∀ token ∈ tokens, token.Shaped)
    (rejected : line limit tokens = .error (.rejected cause rest)) :
    ∃ xs, tokens = xs ++ rest ∧ Wrong xs (Kind.next rest) cause := by
  unfold line at rejected
  split at rejected
  · rename_i name sign value
    have tail := (List.forall_mem_cons.mp (List.forall_mem_cons.mp shaped).2).2
    obtain ⟨xs, rfl, spoiled | ⟨tree, derives, rfl, more⟩⟩ :=
      spoiled_or_trailing tail (with_tree_rejected rejected)
    · exact ⟨_, rfl, .assignment rfl spoiled⟩
    · exact ⟨⟨.identifier, name⟩ :: ⟨.equal, sign⟩ :: xs, rfl,
        .trailing (.assignment rfl derives) more⟩
  · obtain ⟨xs, eq, spoiled | ⟨tree, derives, rfl, more⟩⟩ := spoiled_or_trailing shaped rejected
    · exact ⟨xs, eq, .expression spoiled⟩
    · exact ⟨xs, eq, .trailing (.expression derives) more⟩

theorem line_of_statement (ended : Ended tokens)
    (rejected : statement limit tokens = .error (.rejected cause rest)) :
    line limit tokens = .error (.rejected cause rest) := by
  rw [statement_line limit ended] at rejected
  cases read : line limit tokens with
  | error failure =>
    rw [read] at rejected
    cases rejected
    rfl
  | ok done =>
    rw [read] at rejected
    cases rejected

theorem no_end_before {xs : List Token}
    (rejected : line limit (xs ++ rest) = .error (.rejected cause rest)) :
    ∀ token ∈ xs, token.kind ≠ .lineEnd := by
  rcases cut_line (Nat.le_refl limit) (xs ++ rest) with ⟨_, _, _, _, read, _⟩ |
    @⟨ys, left, other, eq, noEnd, _, small, _⟩ | ⟨_, _, _, deep, _⟩
  · rw [read] at rejected
    cases rejected
  · rw [small] at rejected
    cases rejected
    obtain rfl := List.append_cancel_right eq
    exact noEnd
  · rw [deep] at rejected
    cases rejected

theorem sight_ending (tree : Tree) (rest : List Token) :
    Sight (fun rest => ending (tree, rest)) rest := by
  by_cases atEnd : Kind.next rest = .lineEnd
  · refine sight_of_first (fun other first => ?_) (sight_here (.ok tree) rest)
    rw [ending, next_of_head first, if_pos atEnd]
    rfl
  · refine sight_of_first (fun other first => ?_)
      (sight_here (.error (.trailing (Kind.next rest))) rest)
    rw [ending, next_of_head first, if_neg atEnd]
    rfl

theorem sight_whole (limit : Nat) (tokens : List Token) :
    Sight (fun tokens => (expression limit).read tokens >>= ending) tokens :=
  sight_bind (fun tree rest => ending (tree, rest))
    (sighted_reader limit .expression tokens) fun tree rest _ => sight_ending tree rest

theorem line_expression (limit : Nat)
    (other : ∀ name sign rest, tokens ≠ ⟨.identifier, name⟩ :: ⟨.equal, sign⟩ :: rest) :
    line limit tokens = ((expression limit).read tokens >>= ending) := by
  unfold line
  split
  · exact absurd rfl (other _ _ _)
  · rfl

/-- Lines are told from each other by their second token as well, but no name is wrong at the start
of a line. -/
theorem line_settled {xs more : List Token} {token : Token}
    (named : xs = [] → token.kind ≠ .identifier)
    (rejected : line limit (xs ++ token :: more) = .error (.rejected cause (token :: more)))
    (other : List Token) :
    line limit (xs ++ token :: other) = .error (.rejected cause (token :: other)) := by
  by_cases form : ∃ name sign rest, xs = ⟨.identifier, name⟩ :: ⟨.equal, sign⟩ :: rest
  · obtain ⟨name, sign, rest, rfl⟩ := form
    have inside : ((expression limit).read (rest ++ token :: more) >>= ending) =
        .error (.rejected cause (token :: more)) := with_tree_rejected rejected
    have again := rejected_settled (sight_whole limit _) rfl inside other
    exact congrArg (withTree (.assign name)) again
  by_cases equal : ∃ name sign, xs = [⟨.identifier, name⟩] ∧ token = ⟨.equal, sign⟩
  -- the sign of an assignment is taken before its value is read, so it is not left
  · obtain ⟨name, sign, rfl, rfl⟩ := equal
    have inside : ((expression limit).read more >>= ending) =
        .error (.rejected cause (⟨.equal, sign⟩ :: more)) := with_tree_rejected rejected
    have long := (rejected_suffix (sight_whole limit more) inside).length_le
    simp only [List.length_cons] at long
    omega
  · have plain : ∀ rest name sign after,
        xs ++ token :: rest ≠ ⟨.identifier, name⟩ :: ⟨.equal, sign⟩ :: after := by
      intro rest name sign after eq
      rcases xs with _ | ⟨first, _ | ⟨second, xs⟩⟩
      · cases eq
        exact named rfl rfl
      · cases eq
        exact equal ⟨name, sign, rfl, rfl⟩
      · cases eq
        exact form ⟨name, sign, xs, rfl⟩
    rw [line_expression limit (plain more)] at rejected
    rw [line_expression limit (plain other)]
    exact rejected_settled (sight_whole limit _) rfl rejected other

end Lines

end Reader

section Front

variable {xs : List Token} {kind : Kind} {cause : Cause}

theorem spoiled_not_starts {phrase : Phrase} (spoiled : Spoiled phrase xs kind cause) :
    xs = [] → ¬ Starts kind := by
  induction spoiled with
  | missing => simp [Starts]
  | misplaced other _ => exact fun _ => other
  | empty _ => simp [Starts]
  | inside opens _ _ _ => cases opens <;> simp
  | unclosed opens _ _ => cases opens <;> simp
  | first _ _ ih => exact ih
  | joined => simp
  | unsigned _ ih => exact ih
  | signed => simp

theorem wrong_not_name (wrong : Wrong xs kind cause) (empty : xs = []) : kind ≠ .identifier := by
  rintro rfl
  cases wrong with
  | expression spoiled => exact spoiled_not_starts spoiled empty (.inr (.inl rfl))
  | assignment => cases empty
  | trailing whole _ =>
    cases whole with
    | expression derives =>
      obtain ⟨_, _, rfl, _⟩ := derives_starts derives
      cases empty
    | assignment => cases empty

theorem assigned_front (lexeme : String) {equal : Token} (sign : equal.kind = .equal) :
    Token.Balanced [⟨.identifier, lexeme⟩, equal] ∧ ¬ Complete [⟨.identifier, lexeme⟩, equal] ∧
      ¬ EndsOpening [⟨.identifier, lexeme⟩, equal] := by
  have even : Token.Balanced [equal] := operator_balanced (by simp [sign])
  exact ⟨balanced_cons (by simp) (by simp) even, by simp [Complete, sign],
    by simp [EndsOpening, sign]⟩

theorem statement_complete_balanced {tree : Tree} (statement : Statement xs tree) :
    Complete xs ∧ Token.Balanced xs := by
  cases statement with
  | expression derives => exact ⟨derives_complete derives, derives_balanced derives⟩
  | @assignment lexeme equal xs _ sign derives =>
    obtain ⟨even, _, _⟩ := assigned_front lexeme sign
    exact ⟨complete_append (derives_complete derives) [⟨.identifier, lexeme⟩, equal],
      balanced_append even (derives_balanced derives)⟩

theorem wrong_blames (wrong : Wrong xs kind cause) :
    closed xs ≤ opened xs ∧ Blames xs kind cause := by
  cases wrong with
  | expression spoiled =>
    obtain ⟨less, _, blames⟩ := spoiled_blames spoiled
    exact ⟨less, blames⟩
  | @assignment lexeme equal xs _ _ sign spoiled =>
    obtain ⟨less, inner, blames⟩ := spoiled_blames spoiled
    obtain ⟨even, incomplete, opening⟩ := assigned_front lexeme sign
    exact ⟨balanced_front even less, blames_append blames inner (Nat.le_of_eq even.symm) incomplete
      fun _ ends => absurd ends opening⟩
  | trailing whole _ =>
    obtain ⟨complete, even⟩ := statement_complete_balanced whole
    exact ⟨Nat.le_of_eq even.symm, rfl, complete, even⟩

theorem complete_not_opening (complete : Complete xs) : ¬ EndsOpening xs := by
  rintro ⟨last, found, opening⟩
  obtain ⟨other, same, word⟩ := complete
  obtain rfl := Option.some.inj (found.symm.trans same)
  simp [opening] at word

end Front

section Messages

def kinds : List Kind :=
  [.number, .identifier, .plus, .minus, .star, .slash, .caret, .equal, .bracketOpen,
    .bracketClose, .lineEnd]

def causes : List Cause :=
  [.unended, .operandMissing, .bracketEmpty, .bracketUnclosed] ++
    (kinds.map .operandExpected ++ kinds.map .trailing)

theorem mem_kinds (kind : Kind) : kind ∈ kinds := by
  cases kind <;> decide

theorem mem_causes (cause : Cause) : cause ∈ causes := by
  cases cause with
  | operandExpected found => simp [causes, mem_kinds found]
  | trailing found => simp [causes, mem_kinds found]
  | _ => simp [causes]

theorem summary_iff (cause other : Cause) : cause.summary = other.summary ↔ cause = other := by
  have differ : ∀ cause ∈ causes, ∀ other ∈ causes, cause.summary = other.summary →
      cause = other := by decide +kernel
  exact ⟨differ cause (mem_causes cause) other (mem_causes other), congrArg Cause.summary⟩

def balance (tokens : List Token) : Int := opened tokens - closed tokens

/-- What the words for a cause have to do with the tokens before the wrong one and with its kind. -/
structure Diagnosis (before : List Token) (here : Kind) (words : String) : Prop where
  nonneg : 0 ≤ balance before
  trailing : words = "Unexpected " ++ here.name ++ " after the end of expression" ↔
    Complete before ∧ balance before = 0
  unclosed : words = "Unclosed bracket" ↔ Complete before ∧ 0 < balance before
  empty : words = "Empty parenthesis" ↔ EndsOpening before ∧ here = .bracketClose
  missing : words = "Unexpected end of input, operand expected" ↔
    ¬ Complete before ∧ here = .lineEnd
  expected : words = "Operand expected, found " ++ here.name ↔
    ¬ (Complete before ∧ balance before = 0) ∧ ¬ (Complete before ∧ 0 < balance before) ∧
      ¬ (EndsOpening before ∧ here = .bracketClose) ∧ ¬ (¬ Complete before ∧ here = .lineEnd)

/-- The cases that causes are told by leave out none and do not overlap. -/
theorem cause_iff {before : List Token} {here : Kind} {cause : Cause}
    (less : closed before ≤ opened before) (blames : Blames before here cause) :
    (cause = .trailing here ↔ Complete before ∧ Token.Balanced before) ∧
      (cause = .bracketUnclosed ↔ Complete before ∧ ¬ Token.Balanced before) ∧
      (cause = .bracketEmpty ↔ EndsOpening before ∧ here = .bracketClose) ∧
      (cause = .operandMissing ↔ ¬ Complete before ∧ here = .lineEnd) ∧
      (cause = .operandExpected here ↔
        ¬ (Complete before ∧ Token.Balanced before) ∧
          ¬ (Complete before ∧ ¬ Token.Balanced before) ∧
          ¬ (EndsOpening before ∧ here = .bracketClose) ∧
          ¬ (¬ Complete before ∧ here = .lineEnd)) := by
  have uneven : closed before < opened before ↔ ¬ Token.Balanced before := by
    unfold Token.Balanced
    omega
  have exclusive : Complete before → ¬ EndsOpening before := complete_not_opening
  cases cause with
  | unended => cases blames
  | operandMissing =>
    obtain ⟨incomplete, rfl⟩ := blames
    simp [incomplete]
  | operandExpected found =>
    obtain ⟨rfl, incomplete, inner, occupied⟩ := blames
    simp [incomplete, inner, occupied]
  | bracketEmpty =>
    obtain ⟨ends, rfl⟩ := blames
    have incomplete : ¬ Complete before := fun complete => exclusive complete ends
    simp [incomplete, ends]
  | bracketUnclosed =>
    obtain ⟨complete, surplus⟩ := blames
    simp [complete, exclusive complete, uneven.mp surplus]
  | trailing found =>
    obtain ⟨rfl, complete, even⟩ := blames
    simp [complete, exclusive complete, even]

theorem diagnosis_of_blames {before : List Token} {here : Kind} {cause : Cause}
    (less : closed before ≤ opened before) (blames : Blames before here cause) :
    Diagnosis before here cause.summary := by
  have even : balance before = 0 ↔ Token.Balanced before := by
    unfold balance Token.Balanced
    omega
  have surplus : 0 < balance before ↔ ¬ Token.Balanced before := by
    unfold balance Token.Balanced
    omega
  obtain ⟨trailing, unclosed, empty, missing, expected⟩ := cause_iff less blames
  constructor
  · unfold balance
    omega
  · rw [even, ← trailing]
    exact summary_iff cause (.trailing here)
  · rw [surplus, ← unclosed]
    exact summary_iff cause .bracketUnclosed
  · rw [← empty]
    exact summary_iff cause .bracketEmpty
  · rw [← missing]
    exact summary_iff cause .operandMissing
  · rw [even, surplus, ← expected]
    exact summary_iff cause (.operandExpected here)

end Messages

def failure? {α β : Type} : Except α β → Option α
  | .error failure => some failure
  | .ok _ => none

theorem error_of_failure {α β : Type} {result : Except α β} {failure : α}
    (found : failure? result = some failure) : result = .error failure := by
  cases result with
  | error other =>
    cases found
    rfl
  | ok value => cases found

namespace Tree

variable {tokens rest : List Token} {cause : Cause}

theorem rejected_split (ended : Ended tokens) (shaped : ∀ token ∈ tokens, token.Shaped)
    (rejected : ofTokens tokens = .error (.rejected cause rest)) :
    ∃ xs token more, tokens = xs ++ token :: more ∧ rest = token :: more ∧
      Wrong xs token.kind cause ∧
      Reader.line nestingLimit (xs ++ token :: more) =
        .error (.rejected cause (token :: more)) := by
  have line := Reader.line_of_statement ended rejected
  obtain ⟨xs, rfl, wrong⟩ := Reader.wrong_of_rejected shaped line
  obtain ⟨token, more, rfl⟩ := ended_cons (ended_rest ended (Reader.no_end_before line))
  exact ⟨xs, token, more, rfl, rfl, wrong, line⟩

/-- A line is rejected at the first token that spoils it. The tokens before that one, if they keep
within the nesting limit, can go on to make a line, and no line does that goes on with it: all of
them are rejected there, for the same cause. -/
theorem rejected_at_earliest (ended : Ended tokens) (shaped : ∀ token ∈ tokens, token.Shaped)
    (rejected : ofTokens tokens = .error (.rejected cause rest)) :
    Failure.index tokens rest < tokens.length ∧
      (Nested nestingLimit (tokens.take (Failure.index tokens rest)) →
        ∃ more tree, (∀ token ∈ more, token.Shaped) ∧
          Ended (tokens.take (Failure.index tokens rest) ++ more) ∧
          ofTokens (tokens.take (Failure.index tokens rest) ++ more) = .ok tree) ∧
      ∀ other, Ended other → tokens.take (Failure.index tokens rest + 1) <+: other →
        ∃ left, ofTokens other = .error (.rejected cause left) ∧
          Failure.index other left = Failure.index tokens rest := by
  obtain ⟨xs, token, more, rfl, rfl, wrong, line⟩ := rejected_split ended shaped rejected
  rw [Failure.index_append, List.take_left]
  refine ⟨by simp, fun within => ?_, ?_⟩
  · obtain ⟨ys, tree, plain, statement⟩ := wrong_viable wrong
    have closing : opened ys = 0 :=
      List.countP_eq_zero.mpr fun token member => by
        simpa using (filler_closes token (plain token member)).1
    have nested := nested_append_closing within closing
    have whole : Ended (xs ++ (ys ++ [lineEnd])) := by
      rw [← List.append_assoc]
      exact ended_append
    refine ⟨ys ++ [lineEnd], tree, ?_, whole, ?_⟩
    · refine List.forall_mem_append.mpr ⟨fun token member => ?_, ?_⟩
      · exact .inr (filler_shape token (plain token member))
      · exact List.forall_mem_singleton.mpr (.inl rfl)
    · have body := body_of_statement statement
      rw [List.append_assoc] at body
      refine Reader.statement_complete whole ?_ ?_
      · rwa [body]
      · rwa [body]
  · rintro other last ⟨behind, rfl⟩
    have begun : (xs ++ token :: more).take (xs.length + 1) ++ behind = xs ++ token :: behind := by
      rw [List.take_length_add_append, List.append_assoc]
      rfl
    rw [begun] at last ⊢
    have again := Reader.line_settled (wrong_not_name wrong) line behind
    refine ⟨token :: behind, ?_, Failure.index_append xs _⟩
    rw [ofTokens, Reader.statement_line nestingLimit last, again]
    rfl

def closedEarly : List Token :=
  [⟨.identifier, "x"⟩, ⟨.equal, "="⟩, ⟨.bracketOpen, "("⟩, ⟨.number, "2"⟩, ⟨.plus, "+"⟩,
    ⟨.bracketClose, ")"⟩, ⟨.number, "1"⟩, lineEnd]

theorem early_close_spoils :
    Ended closedEarly ∧ (∀ token ∈ closedEarly, token.Shaped) ∧
      ofTokens closedEarly = .error (.rejected (.operandExpected .bracketClose)
        [⟨.bracketClose, ")"⟩, ⟨.number, "1"⟩, lineEnd]) ∧
      (∃ more tree, (∀ token ∈ more, token.Shaped) ∧ Ended (closedEarly.take 5 ++ more) ∧
        ofTokens (closedEarly.take 5 ++ more) = .ok tree) ∧
      ∀ other, Ended other → closedEarly.take 6 <+: other →
        ∃ left, ofTokens other = .error (.rejected (.operandExpected .bracketClose) left) ∧
          Failure.index other left = 5 := by
  have scanned : Token.ofLine "x = (2 + ) 1" = .ok closedEarly :=
    ok_of_toOption (by decide +kernel)
  have ended := ended_of_line scanned
  have shaped := shaped_of_line scanned
  have rejected : ofTokens closedEarly = .error (.rejected (.operandExpected .bracketClose)
      [⟨.bracketClose, ")"⟩, ⟨.number, "1"⟩, lineEnd]) := error_of_failure (by decide +kernel)
  obtain ⟨_, goesOn, spoils⟩ := rejected_at_earliest ended shaped rejected
  have within : Nested nestingLimit (closedEarly.take 5) := nested_of_opened (by decide)
  exact ⟨ended, shaped, rejected, goesOn within, spoils⟩

/-- The words for the cause of a rejection are told by the brackets that are open before the wrong
token, by the token before it and by itself. -/
theorem rejected_in_words (ended : Ended tokens) (shaped : ∀ token ∈ tokens, token.Shaped)
    (rejected : ofTokens tokens = .error (.rejected cause rest)) :
    ∃ here, tokens[Failure.index tokens rest]? = some here ∧
      Diagnosis (tokens.take (Failure.index tokens rest)) here.kind cause.summary := by
  obtain ⟨xs, token, more, rfl, rfl, wrong, _⟩ := rejected_split ended shaped rejected
  obtain ⟨less, blames⟩ := wrong_blames wrong
  rw [Failure.index_append, List.take_left]
  exact ⟨token, by simp, diagnosis_of_blames less blames⟩

def missingComma : List Token :=
  [⟨.identifier, "f"⟩, ⟨.bracketOpen, "("⟩, ⟨.number, "2"⟩, ⟨.number, "3"⟩,
    ⟨.bracketClose, ")"⟩, lineEnd]

theorem unclosed_before_number :
    Ended missingComma ∧ (∀ token ∈ missingComma, token.Shaped) ∧
      ofTokens missingComma = .error (.rejected .bracketUnclosed (missingComma.drop 3)) ∧
      Diagnosis (missingComma.take 3) .number "Unclosed bracket" := by
  have scanned : Token.ofLine "f(2 3)" = .ok missingComma :=
    ok_of_toOption (by decide +kernel)
  have ended := ended_of_line scanned
  have shaped := shaped_of_line scanned
  have rejected : ofTokens missingComma =
      .error (.rejected .bracketUnclosed (missingComma.drop 3)) :=
    error_of_failure (by decide +kernel)
  obtain ⟨here, found, diagnosis⟩ := rejected_in_words ended shaped rejected
  cases found
  exact ⟨ended, shaped, rejected, diagnosis⟩

end Tree

end Reckoner

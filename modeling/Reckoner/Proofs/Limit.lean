import Reckoner.Proofs.Reading

/- The nesting limit on whole lines: it cuts off what would be read without it, and changes nothing
   else. Closing brackets without a partner count against the open ones here, but no line is read
   beyond the first of them. -/
namespace Reckoner
open Grammar Token

namespace Token

/-- The token at this place is the first one with more than `limit` brackets open. -/
def Oversteps (limit : Nat) (tokens : List Token) (place : Nat) : Prop :=
  Nested limit (tokens.take place) ∧ ¬ Nested limit (tokens.take (place + 1))

theorem oversteps_of_opened {limit place : Nat} {tokens : List Token}
    (few : opened (tokens.take place) ≤ limit)
    (many : closed (tokens.take (place + 1)) + limit < opened (tokens.take (place + 1))) :
    Oversteps limit tokens place := by
  refine ⟨nested_of_opened few, fun nested => ?_⟩
  have bound := nested _ [] (List.append_nil _).symm
  omega

theorem nested_take {limit short long : Nat} {tokens : List Token} (le : short ≤ long)
    (nested : Nested limit (tokens.take long)) : Nested limit (tokens.take short) := by
  obtain ⟨more, eq⟩ : tokens.take short <+: tokens.take long := List.take_prefix_take_left le
  rw [← eq] at nested
  exact nested_left nested

theorem body_eq_take (tokens : List Token) : body tokens = tokens.take (body tokens).length := by
  obtain ⟨rest, eq, _⟩ := body_split tokens
  generalize body tokens = xs at eq
  rw [eq, List.take_left]

end Token

namespace Tree

/-- What a line is without a limit: it has no more brackets to open than tokens. -/
def unlimited (tokens : List Token) : Except Failure Tree :=
  Reader.statement tokens.length tokens

/-- The tokens that are read before a line is rejected, or up to its end. -/
def reached (tokens : List Token) : Except Failure Tree → List Token
  | .error (.rejected _ rest) => tokens.take (Failure.index tokens rest)
  | _ => body tokens

theorem line_with_room {limit : Nat} {tokens : List Token} (room : tokens.length ≤ limit) :
    Reader.line limit tokens = Reader.line tokens.length tokens ∧
      Reader.line limit tokens ≠ .error .tooDeep := by
  rcases Reader.cut_line room tokens with ⟨_, _, _, _, small, large⟩ | ⟨_, _, _, small, large⟩ |
    @⟨xs, rest, eq, _, opens, _, _⟩
  · exact ⟨large.trans small.symm, by simp [large]⟩
  · exact ⟨large.trans small.symm, by simp [large]⟩
  · have few := opened_le_length xs
    have count := congrArg List.length eq
    rw [List.length_append] at count
    omega

theorem unlimited_line {limit : Nat} {tokens : List Token} (ended : Ended tokens)
    (room : tokens.length ≤ limit) :
    unlimited tokens = (Reader.line limit tokens).map Prod.fst := by
  rw [unlimited, Reader.statement_line _ ended, (line_with_room room).1]

theorem unlimited_not_too_deep {tokens : List Token} (ended : Ended tokens) :
    unlimited tokens ≠ .error .tooDeep := by
  rw [unlimited_line ended (Nat.le_refl _)]
  have given := (line_with_room (Nat.le_refl tokens.length)).2
  generalize Reader.line tokens.length tokens = outcome at given
  cases outcome <;> simp_all [Except.map]

theorem not_nested_reached {limit : Nat} {xs rest : List Token} {large : Outcome}
    (noEnd : ∀ token ∈ xs, token.kind ≠ .lineEnd) (opens : opened xs = closed xs + (limit + 1))
    (later : ∀ left ∈ remaining large, left.length ≤ rest.length) :
    ¬ Nested limit (reached (xs ++ rest) (large.map Prod.fst)) := by
  have longer : ∃ more, reached (xs ++ rest) (large.map Prod.fst) = xs ++ more := by
    rcases large with (⟨cause, left⟩ | _) | done
    · have bound := later left rfl
      have split : Failure.index (xs ++ rest) left = xs.length + (rest.length - left.length) := by
        rw [Failure.index, List.length_append]
        omega
      exact ⟨rest.take (rest.length - left.length), by
        simp only [Except.map, reached, split, List.take_length_add_append]⟩
    · exact ⟨body rest, body_append noEnd⟩
    · exact ⟨body rest, body_append noEnd⟩
  obtain ⟨more, eq⟩ := longer
  intro nested
  have bound := nested xs more eq
  omega

/-- A limit changes nothing, or it cuts a line of which the tokens that are read without it overstep
it. The last token before an empty bracket's end may overstep it as well. -/
theorem statement_limit (limit : Nat) {tokens : List Token} (ended : Ended tokens) :
    Reader.statement limit tokens = unlimited tokens ∧
        (Nested limit (reached tokens (unlimited tokens)) ∨
          ∃ rest, unlimited tokens = .error (.rejected .bracketEmpty rest) ∧
            Nested limit (reached tokens (unlimited tokens)).dropLast) ∨
      Reader.statement limit tokens = .error .tooDeep ∧
        ¬ Nested limit (reached tokens (unlimited tokens)) := by
  have room : tokens.length ≤ max limit tokens.length := Nat.le_max_right ..
  rw [unlimited_line ended room, Reader.statement_line limit ended]
  generalize largeEq : Reader.line (max limit tokens.length) tokens = large
  have cut := Reader.cut_line (Nat.le_max_left limit tokens.length) tokens
  rw [largeEq] at cut
  rcases cut with @⟨xs, rest, tree, rfl, noEnd, _, nested, small, rfl⟩ |
    @⟨xs, rest, cause, rfl, _, before, small, rfl⟩ | ⟨rfl, noEnd, opens, small, later⟩
  · have all : body (xs ++ rest) = xs := by
      rw [body_append noEnd, body_of_next (Reader.next_of_line largeEq), List.append_nil]
    rw [small]
    simp only [Except.map, reached, all]
    exact .inl ⟨trivial, .inl nested⟩
  · rw [small]
    simp only [Except.map, reached, Failure.index_append, List.take_left]
    refine .inl ⟨trivial, ?_⟩
    rcases before with nested | ⟨rfl, nested, rfl⟩
    · exact .inl nested
    · exact .inr ⟨rest, rfl, by rwa [List.dropLast_concat]⟩
  · rw [small]
    exact .inr ⟨rfl, not_nested_reached noEnd opens later⟩

/-- Lines are read, or rejected at the same token and for the same cause, as without a limit, if no
token before oversteps it. A line that oversteps it, and would be read beyond, is too deep. -/
theorem limit_only_cuts (tokens : List Token) (ended : Ended tokens) :
    (∀ limit, tokens.length ≤ limit → Reader.statement limit tokens = unlimited tokens) ∧
      unlimited tokens ≠ .error .tooDeep ∧
      (Nested nestingLimit (reached tokens (unlimited tokens)) →
        ofTokens tokens = unlimited tokens) ∧
      ∀ place, Oversteps nestingLimit tokens place →
        ((∃ tree, unlimited tokens = .ok tree) ∧ place < (body tokens).length ∨
          ∃ cause rest, unlimited tokens = .error (.rejected cause rest) ∧
            place + 2 ≤ Failure.index tokens rest) →
        ofTokens tokens = .error .tooDeep ∧
          ∀ (env : Environment) (line : String), Token.ofLine line = .ok tokens →
            (env.step line).answer =
              .error "invalid expression" (some "expression is nested too deeply") ∧
            (env.step line).environment = env := by
  have limited := statement_limit nestingLimit ended
  refine ⟨?_, unlimited_not_too_deep ended, ?_, ?_⟩
  · intro limit room
    rw [unlimited_line ended room, Reader.statement_line limit ended]
  · intro nested
    rcases limited with ⟨same, _⟩ | ⟨_, outside⟩
    · exact same
    · exact absurd nested outside
  · rintro place ⟨_, exceeds⟩ beyond
    have tooDeep : ofTokens tokens = .error .tooDeep := by
      rcases limited with ⟨_, nested | ⟨empty, cut, nested⟩⟩ | ⟨deep, _⟩
      · rcases beyond with ⟨⟨tree, read⟩, inside⟩ | ⟨cause, rest, rejected, inside⟩
        · simp only [read, reached] at nested
          rw [body_eq_take] at nested
          exact absurd (nested_take inside nested) exceeds
        · simp only [rejected, reached] at nested
          exact absurd (nested_take (by omega) nested) exceeds
      · rcases beyond with ⟨⟨tree, read⟩, _⟩ | ⟨cause, rest, rejected, inside⟩
        · rw [read] at cut
          cases cut
        -- the brackets overstep the limit before the last token that is read
        · simp only [rejected, reached] at nested
          rw [List.dropLast_eq_take, List.take_take, List.length_take] at nested
          have whole : Failure.index tokens rest ≤ tokens.length := Nat.sub_le _ _
          exact absurd (nested_take (by omega) nested) exceeds
      · exact deep
    refine ⟨tooDeep, fun env line scanned => ?_⟩
    have read : Reading.ofLine line = .error (.tooDeep tokens) := by
      simp only [Reading.ofLine, scanned, tooDeep]
    exact Environment.step_of_refusal env read

/-- An empty bracket is told as such, even where it is one too many. -/
example :
    let rest : List Token := [⟨.bracketClose, ")"⟩, lineEnd]
    Reader.statement 0 (⟨.bracketOpen, "("⟩ :: rest) = .error (.rejected .bracketEmpty rest) := by
  cbv

def bracketed (count : Nat) : List Token :=
  List.replicate count ⟨.bracketOpen, "("⟩ ++
    ⟨.number, "1"⟩ :: (List.replicate count ⟨.bracketClose, ")"⟩ ++ [lineEnd])

def bracketedLine (count : Nat) : String :=
  String.ofList (List.replicate count '(' ++ '1' :: List.replicate count ')')

theorem one_bracket_too_many :
    Ended (bracketed 109) ∧ Nested nestingLimit (body (bracketed 109)) ∧
      ofTokens (bracketed 109) = .ok (Reader.literal "1") ∧
      Ended (bracketed 110) ∧ Oversteps nestingLimit (bracketed 110) 109 ∧
      unlimited (bracketed 110) = .ok (Reader.literal "1") ∧
      ofTokens (bracketed 110) = .error .tooDeep ∧
      ∀ env : Environment,
        (env.step (bracketedLine 110)).answer =
          .error "invalid expression" (some "expression is nested too deeply") ∧
        (env.step (bracketedLine 110)).environment = env := by
  have ended : ∀ count, Ended (bracketed count) := by
    intro count
    rw [bracketed, ← List.cons_append, ← List.append_assoc]
    exact ended_append
  have within : Nested nestingLimit (body (bracketed 109)) := nested_of_opened (by decide +kernel)
  have exceeds : Oversteps nestingLimit (bracketed 110) 109 :=
    oversteps_of_opened (by decide +kernel) (by decide +kernel)
  have few : unlimited (bracketed 109) = .ok (Reader.literal "1") :=
    ok_of_toOption (by decide +kernel)
  have many : unlimited (bracketed 110) = .ok (Reader.literal "1") :=
    ok_of_toOption (by decide +kernel)
  have scanned : Token.ofLine (bracketedLine 110) = .ok (bracketed 110) := by
    rw [Token.ofLine, bracketedLine, String.toList_ofList]
    exact ok_of_toOption (by decide +kernel)
  have read := (limit_only_cuts (bracketed 109) (ended 109)).2.2.1 (by
    simp only [few, reached]
    exact within)
  have cut := (limit_only_cuts (bracketed 110) (ended 110)).2.2.2 109 exceeds
    (.inl ⟨⟨_, many⟩, by decide +kernel⟩)
  exact ⟨ended 109, within, read.trans few, ended 110, exceeds, many, cut.1,
    fun env => cut.2 env _ scanned⟩

def behindEnd (count : Nat) : List Token :=
  ⟨.number, "1"⟩ :: lineEnd :: (List.replicate count ⟨.bracketOpen, "("⟩ ++ [lineEnd])

/-- Brackets that overstep the limit behind an end of line cut nothing. -/
theorem brackets_behind_end_unread :
    Ended (behindEnd 300) ∧ (∀ token ∈ behindEnd 300, token.Shaped) ∧
      Oversteps nestingLimit (behindEnd 300) 111 ∧
      unlimited (behindEnd 300) = .ok (Reader.literal "1") ∧
      ofTokens (behindEnd 300) = .ok (Reader.literal "1") := by
  have ended : Ended (behindEnd 300) := by
    rw [behindEnd, ← List.cons_append, ← List.cons_append]
    exact ended_append
  have shaped : ∀ token ∈ behindEnd 300, token.Shaped := by
    intro token member
    simp only [behindEnd, List.mem_cons, List.mem_append, List.mem_replicate,
      List.not_mem_nil, or_false] at member
    rcases member with rfl | rfl | ⟨_, rfl⟩ | rfl
    · exact .inr (.whole (by simp) (by simp))
    · exact .inl rfl
    · exact .inr (.symbol rfl)
    · exact .inl rfl
  have exceeds : Oversteps nestingLimit (behindEnd 300) 111 :=
    oversteps_of_opened (by decide +kernel) (by decide +kernel)
  exact ⟨ended, shaped, exceeds, ok_of_toOption (by decide +kernel),
    ok_of_toOption (by decide +kernel)⟩

end Tree
end Reckoner

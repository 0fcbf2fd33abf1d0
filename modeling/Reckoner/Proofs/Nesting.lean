import Reckoner.Token

/- How many brackets are open within each other in a list of tokens. Brackets are counted by their
   kinds only; closing ones without a partner count against the open ones. -/
namespace Reckoner.Token

def opened (tokens : List Token) : Nat := tokens.countP (·.kind = .bracketOpen)

def closed (tokens : List Token) : Nat := tokens.countP (·.kind = .bracketClose)

/-- Nowhere are more than `limit` brackets open at once. -/
def Nested (limit : Nat) (tokens : List Token) : Prop :=
  ∀ before after, tokens = before ++ after → opened before ≤ closed before + limit

def Balanced (tokens : List Token) : Prop := opened tokens = closed tokens

theorem opened_append (xs ys : List Token) : opened (xs ++ ys) = opened xs + opened ys := by
  simp [opened]

theorem closed_append (xs ys : List Token) : closed (xs ++ ys) = closed xs + closed ys := by
  simp [closed]

theorem opened_cons (token : Token) (xs : List Token) :
    opened (token :: xs) = opened xs + if token.kind = .bracketOpen then 1 else 0 := by
  simp [opened, List.countP_cons]

theorem closed_cons (token : Token) (xs : List Token) :
    closed (token :: xs) = closed xs + if token.kind = .bracketClose then 1 else 0 := by
  simp [closed, List.countP_cons]

theorem opened_nil : opened [] = 0 := rfl

theorem closed_nil : closed [] = 0 := rfl

theorem opened_le_length (xs : List Token) : opened xs ≤ xs.length :=
  List.countP_le_length

theorem balanced_append {xs ys : List Token} (left : Balanced xs) (right : Balanced ys) :
    Balanced (xs ++ ys) := by
  simp only [Balanced, opened_append, closed_append] at *
  omega

theorem balanced_cons {token : Token} {xs : List Token} (opening : token.kind ≠ .bracketOpen)
    (closing : token.kind ≠ .bracketClose) (rest : Balanced xs) : Balanced (token :: xs) := by
  simp only [Balanced, opened_cons, closed_cons, opening, closing, if_false] at *
  omega

theorem balanced_enclosed {opening closing : Token} {xs : List Token}
    (first : opening.kind = .bracketOpen) (last : closing.kind = .bracketClose)
    (inside : Balanced xs) : Balanced (opening :: (xs ++ [closing])) := by
  simp only [Balanced, opened_cons, closed_cons, opened_append, closed_append, opened_nil,
    closed_nil, first, last, reduceCtorEq, if_false, if_true] at *
  omega

theorem nested_left {limit : Nat} {xs ys : List Token} (nested : Nested limit (xs ++ ys)) :
    Nested limit xs := by
  intro before after eq
  exact nested before (after ++ ys) (by rw [eq, List.append_assoc])

theorem nested_right {limit : Nat} {xs ys : List Token} (nested : Nested limit (xs ++ ys))
    (balanced : Balanced xs) : Nested limit ys := by
  intro before after eq
  have bound := nested (xs ++ before) after (by rw [eq, List.append_assoc])
  simp only [Balanced, opened_append, closed_append] at balanced bound
  omega

theorem nested_tail {limit : Nat} {token : Token} {xs : List Token}
    (opening : token.kind ≠ .bracketOpen) (closing : token.kind ≠ .bracketClose)
    (nested : Nested limit (token :: xs)) : Nested limit xs := by
  have alone : Balanced [token] := balanced_cons opening closing rfl
  have whole : Nested limit ([token] ++ xs) := nested
  exact nested_right whole alone

theorem nested_assigned {limit : Nat} {name : String} {sign : Token} {xs : List Token}
    (equal : sign.kind = .equal) (nested : Nested limit (⟨.identifier, name⟩ :: sign :: xs)) :
    Nested limit xs := by
  have after : Nested limit (sign :: xs) := nested_tail (by simp) (by simp) nested
  exact nested_tail (by simp [equal]) (by simp [equal]) after

theorem nested_inside {limit : Nat} {opening : Token} {xs : List Token}
    (first : opening.kind = .bracketOpen) (nested : Nested limit (opening :: xs)) :
    ∃ room, limit = room + 1 ∧ Nested room xs := by
  have whole : ∀ before after, xs = before ++ after →
      opened before + 1 ≤ closed before + limit := by
    intro before after eq
    have bound := nested (opening :: before) after (by rw [eq, List.cons_append])
    simpa [opened_cons, closed_cons, first] using bound
  have room := whole [] xs rfl
  simp only [opened_nil, closed_nil] at room
  refine ⟨limit - 1, by omega, ?_⟩
  intro before after eq
  have bound := whole before after eq
  omega

theorem nested_of_opened {limit : Nat} {xs : List Token} (few : opened xs ≤ limit) :
    Nested limit xs := by
  rintro before after rfl
  rw [opened_append] at few
  omega

theorem nested_nil (limit : Nat) : Nested limit [] :=
  nested_of_opened (Nat.zero_le limit)

theorem nested_append {limit : Nat} {xs ys : List Token} (balanced : Balanced xs)
    (left : Nested limit xs) (right : Nested limit ys) : Nested limit (xs ++ ys) := by
  intro before after eq
  rcases List.append_eq_append_iff.mp eq with ⟨more, rfl, rest⟩ | ⟨more, rest, _⟩
  · have bound := right more after rest
    simp only [Balanced, opened_append, closed_append] at *
    omega
  · exact left before more rest

theorem nested_append_closing {limit : Nat} {xs ys : List Token} (nested : Nested limit xs)
    (closing : opened ys = 0) : Nested limit (xs ++ ys) := by
  intro before after eq
  rcases List.append_eq_append_iff.mp eq with ⟨more, rfl, rfl⟩ | ⟨more, rest, _⟩
  · have bound := nested xs [] (List.append_nil xs).symm
    simp only [opened_append, closed_append] at *
    omega
  · exact nested before more rest

theorem nested_cons {limit : Nat} {token : Token} {xs : List Token}
    (opening : token.kind ≠ .bracketOpen) (closing : token.kind ≠ .bracketClose)
    (nested : Nested limit xs) : Nested limit (token :: xs) := by
  intro before after eq
  cases before with
  | nil => exact Nat.zero_le _
  | cons first before =>
    obtain ⟨rfl, rest⟩ := List.cons.inj eq
    have bound := nested before after rest
    simp only [opened_cons, closed_cons, opening, closing, if_false]
    omega

theorem nested_opening {room : Nat} {opening : Token} {xs : List Token}
    (first : opening.kind = .bracketOpen) (nested : Nested room xs) :
    Nested (room + 1) (opening :: xs) := by
  intro before after eq
  cases before with
  | nil => exact Nat.zero_le _
  | cons other before =>
    obtain ⟨rfl, rest⟩ := List.cons.inj eq
    have bound := nested before after rest
    simp only [opened_cons, closed_cons, first, reduceCtorEq, if_true, if_false]
    omega

theorem nested_enclosed {room : Nat} {opening closing : Token} {xs : List Token}
    (first : opening.kind = .bracketOpen) (last : closing.kind = .bracketClose)
    (balanced : Balanced xs) (nested : Nested room xs) :
    Nested (room + 1) (opening :: (xs ++ [closing])) := by
  have alone : Nested room [closing] := nested_of_opened (by simp [opened, last])
  exact nested_opening first (nested_append balanced nested alone)

theorem nested_length (xs : List Token) : Nested xs.length xs :=
  nested_of_opened (opened_le_length xs)

theorem nested_iff_take (limit : Nat) (xs : List Token) :
    Nested limit xs ↔
      ∀ count ∈ List.range (xs.length + 1),
        opened (xs.take count) ≤ closed (xs.take count) + limit := by
  constructor
  · intro nested count _
    exact nested (xs.take count) (xs.drop count) (List.take_append_drop count xs).symm
  · rintro bound before after rfl
    have inside : before.length < (before ++ after).length + 1 := by
      rw [List.length_append]
      omega
    have here := bound before.length (List.mem_range.mpr inside)
    rwa [List.take_left] at here

instance (limit : Nat) (xs : List Token) : Decidable (Nested limit xs) :=
  decidable_of_iff _ (nested_iff_take limit xs).symm

end Reckoner.Token

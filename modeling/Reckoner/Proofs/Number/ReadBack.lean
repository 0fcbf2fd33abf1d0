import Mathlib
import Reckoner.Proofs.Number.Pattern
import Reckoner.Proofs.Number.Written

/- The text of a double stands for the double, in whatever layout it is written: digits with a
   point, a power of ten behind them, an infinity or NaN, with or without a minus. -/
namespace Reckoner.Number
open Binary64 Decimal

/-- The power of ten behind a number: the letter e, a sign and digits. Nothing stands for the power
zero. -/
def power? : List Char → Option Int
  | [] => some 0
  | 'e' :: sign :: digits =>
    if digits = [] || !digits.all Char.isDigit then none
    else if sign = '+' then some (digitsValue digits)
    else if sign = '-' then some (-digitsValue digits)
    else none
  | _ => none

def magnitude? (cs : List Char) : Option Float :=
  if cs = ['n', 'a', 'n'] then some nan
  else if cs = ['i', 'n', 'f'] then some infinity
  else
    match Lexeme.longest? cs with
    | some ⟨.number, text, rest⟩ =>
      (power? rest).map fun power =>
        toFloat ⟨(ofChars text).digits, (ofChars text).exponent + power⟩
    | _ => none

def read? (text : String) : Option Float :=
  match text.toList with
  | '-' :: cs => (magnitude? cs).map fun x => -x
  | cs => magnitude? cs

section Power

theorem power_of_digits {sign : Char} {digits : List Char} (some : digits ≠ [])
    (all : ∀ c ∈ digits, c.isDigit) :
    power? ('e' :: sign :: digits) =
      if sign = '+' then .some (digitsValue digits : Int)
      else if sign = '-' then .some (-digitsValue digits) else none := by
  have good : (digits = [] || !digits.all Char.isDigit) = false := by
    simpa [some] using all
  simp only [power?, good, Bool.false_eq_true, if_false]

def paddedDigits (n : Nat) : List Char :=
  zeros (2 - (Nat.toDigits 10 n).length) ++ Nat.toDigits 10 n

theorem paddedDigits_ne_nil (n : Nat) : paddedDigits n ≠ [] := by
  have positive : 0 < (Nat.toDigits 10 n).length := Nat.length_toDigits_pos
  exact List.append_ne_nil_of_right_ne_nil _ (List.ne_nil_of_length_pos positive)

theorem paddedDigits_digits (n : Nat) : ∀ c ∈ paddedDigits n, c.isDigit := by
  intro c member
  rcases List.mem_append.mp member with zero | digit
  · exact zeros_digits zero
  · exact Nat.isDigit_of_mem_toDigits (by decide) (by decide) digit

theorem digitsValue_paddedDigits (n : Nat) : digitsValue (paddedDigits n) = n := by
  rw [paddedDigits, digitsValue_append, digitsValue_zeros, digitsValue_toDigits, Nat.zero_mul,
    Nat.zero_add]

def powerText (exponent : Int) : List Char :=
  'e' :: (if exponent < 0 then '-' else '+') :: paddedDigits exponent.natAbs

theorem power_powerText (exponent : Int) : power? (powerText exponent) = some exponent := by
  rw [powerText, power_of_digits (paddedDigits_ne_nil _) (paddedDigits_digits _),
    digitsValue_paddedDigits]
  by_cases negative : exponent < 0
  · simp only [if_pos negative]
    exact congrArg some (by omega)
  · simp only [if_neg negative, if_true]
    exact congrArg some (by omega)

end Power

section Mantissa

def mantissa (cs : List Char) : List Char :=
  cs.take 1 ++ if cs.length ≤ 1 then [] else '.' :: cs.drop 1

theorem scientific_eq (cs : List Char) (exponent : Int) :
    scientific cs exponent = mantissa cs ++ powerText exponent := by
  simp only [scientific, mantissa, powerText, paddedDigits, List.append_assoc, List.cons_append]

theorem mantissa_spec {cs : List Char} (some : cs ≠ []) (digits : ∀ c ∈ cs, c.isDigit) :
    Shape .number (mantissa cs) ∧
      (ofChars (mantissa cs)).value = digitsValue cs * (10 : Rat) ^ (1 - cs.length : Int) := by
  match cs with
  | [] => exact absurd rfl some
  | [c] =>
    have digit : c.isDigit := digits c (by simp)
    have noPoint : c ≠ '.' := by rintro rfl; exact absurd digit (by decide)
    exact ⟨.whole some digits, by simp [mantissa, ofChars, Decimal.value, noPoint]⟩
  | c :: d :: ds =>
    have writes : Writes (mantissa (c :: d :: ds))
        (digitsValue (c :: d :: ds) * (10 : Rat) ^ (1 - (c :: d :: ds).length : Int)) := by
      refine ⟨[c], d :: ds, by simp [mantissa], by simp, by simp, digits, ?_⟩
      have places : (1 - (c :: d :: ds).length : Int) = -(d :: ds).length := by
        simp only [List.length_cons]
        omega
      rw [List.singleton_append, places]
    exact ⟨writes.shape, writes.value_ofChars⟩

end Mantissa

section Texts

theorem magnitude_of_number {text : List Char} (shape : Shape .number text) {power : Int}
    {rest : List Char} (ends : Lexeme.Ends .number text rest) (read : power? rest = some power)
    {p : Nat} (rounds : RoundsTo ((ofChars text).value * (10 : Rat) ^ power) p)
    (bound : p ≤ infinitePattern) : magnitude? (text ++ rest) = some (ofPattern p) := by
  obtain ⟨c, cs, rfl, first⟩ := shape_first shape
  have digit : c.isDigit := by simpa [Kind.symbol?] using first
  have found := Lexeme.longest_of_shape shape ends
  have notNan : c :: cs ++ rest ≠ ['n', 'a', 'n'] := by
    intro same
    rw [List.cons_append, List.cons.injEq] at same
    exact absurd (same.1 ▸ digit) (by decide)
  have notInf : c :: cs ++ rest ≠ ['i', 'n', 'f'] := by
    intro same
    rw [List.cons_append, List.cons.injEq] at same
    exact absurd (same.1 ▸ digit) (by decide)
  rw [magnitude?, if_neg notNan, if_neg notInf, found]
  simp only [read, Option.map_some, Option.some.injEq]
  apply toFloat_of_roundsTo _ bound
  rwa [Decimal.value, zpow_add₀ (by norm_num), ← mul_assoc]

theorem magnitude_of_writes {cs : List Char} {r : Rat} (writes : Writes cs r) {p : Nat}
    (rounds : RoundsTo r p) (bound : p ≤ infinitePattern) :
    magnitude? cs = some (ofPattern p) := by
  have read := magnitude_of_number writes.shape (Lexeme.clear_ends Lexeme.clear_nil _ _) rfl
    (by rwa [writes.value_ofChars, zpow_zero, mul_one]) bound
  rwa [List.append_nil] at read

theorem power_ends (text : List Char) (exponent : Int) :
    Lexeme.Ends .number text (powerText exponent) := by
  constructor
  · intro c first
    obtain rfl : c = 'e' := by simpa [powerText, eq_comm] using first
    decide
  · intro _ c after same
    simp [powerText] at same

theorem magnitude_decimalText {d : Decimal} (positive : 0 < d.digits) {p : Nat}
    (rounds : RoundsTo d.value p) (bound : p ≤ infinitePattern) :
    magnitude? (decimalText d) = some (ofPattern p) := by
  obtain ⟨some, digits, value⟩ := significant_spec positive
  rw [← value] at rounds
  simp only [decimalText]
  change magnitude? (if _ then positional (trimmed _) _ else scientific (trimmed _) _) = _
  generalize trimmed (Nat.toDigits 10 d.digits) = significant at *
  generalize ((Nat.toDigits 10 d.digits).length : Int) + d.exponent = point at *
  split
  · exact magnitude_of_writes (positional_writes some digits point) rounds bound
  · obtain ⟨shape, number⟩ := mantissa_spec some digits
    rw [scientific_eq]
    apply magnitude_of_number shape (power_ends _ _) (power_powerText _) _ bound
    rw [number, mul_assoc, ← zpow_add₀ (by norm_num)]
    convert rounds using 3
    omega

theorem magnitude_patternText {p : Nat} (bound : p ≤ infinitePattern) :
    magnitude? (patternText p) = some (ofPattern p) := by
  rw [patternText, if_neg (by omega)]
  by_cases infinite : p = infinitePattern
  · rw [if_pos infinite, infinite]
    rfl
  rw [if_neg infinite]
  have rounds := roundsTo_shortest p
  -- zero stands apart: of every other pattern the shortest decimal has a digit that counts
  by_cases zero : p = 0
  · rw [if_pos zero, zero]
    exact magnitude_of_writes zero_writes (magnitude_zero ▸ roundsTo_magnitude 0) (Nat.zero_le _)
  · rw [if_neg zero]
    refine magnitude_decimalText ?_ rounds bound
    by_contra none
    have null : (shortest p).value = magnitude 0 := by
      rw [Decimal.value, Nat.eq_zero_of_not_pos none, Nat.cast_zero, zero_mul, magnitude_zero]
    rw [null] at rounds
    exact zero (rounds.unique (roundsTo_magnitude 0))

theorem read_of_magnitude {cs : List Char} {x : Float} (read : magnitude? cs = some x) :
    read? (String.ofList cs) = some x ∧ read? (String.ofList ('-' :: cs)) = some (-x) := by
  simp only [read?, String.toList_ofList]
  constructor
  · split
    · rename_i rest
      have signed : magnitude? ('-' :: rest) = none := rfl
      rw [signed] at read
      contradiction
    · exact read
  · rw [read, Option.map_some]

theorem read_text (x : Float) : read? (text x) = some x := by
  by_cases number : pattern x ≤ infinitePattern
  · obtain ⟨positive, negative⟩ := read_of_magnitude (magnitude_patternText number)
    cases sign : isNegative x with
    | false =>
      rw [ofPattern_pattern number sign] at positive
      simpa [text, sign] using positive
    | true =>
      rw [neg_ofPattern_pattern number sign] at negative
      simpa [text, sign, number] using negative
  · have beyond := Nat.lt_of_not_le number
    have written : text x = String.ofList ['n', 'a', 'n'] := by
      simp only [text, number, decide_false, Bool.and_false, patternText, if_pos beyond]
      rfl
    rw [written, eq_nan beyond]
    rfl

example : read? "-1.5e+300" = some (-1.5e300) := by decide +kernel

end Texts

end Reckoner.Number

import Mathlib
import Reckoner.Proofs.Number.Exact

/- Odd whole numbers among the doubles. The three tests of the program find exactly these: divided
   by two, a whole number leaves a remainder if it is odd, and all doubles whose last bit weighs two
   or more leave none. -/
namespace Reckoner.Binary64

inductive NeverOdd (x : Float) : Prop where
  | zero (zero : x = 0.0 ∨ x = -0.0)
  | notANumber (nan : x.isNaN = true)
  | infinite (infinite : x = infinity ∨ x = -infinity)
  | fraction (fraction : ∀ n : Int, value x ≠ n)
  | large (large : 2 ^ 53 ≤ |value x|)

theorem even_of_large {p : Nat} (large : 2 ^ 53 ≤ magnitude p) : 2 * one ∣ units p := by
  have least : 2 ^ 53 * one ≤ units p := by
    rw [magnitude, le_div_iff₀ one_cast_pos] at large
    exact_mod_cast large
  have normal : ¬p < binade := by
    intro small
    have positive := one_pos
    rw [units_of_le (by omega)] at least
    rw [binade_eq] at small
    omega
  have top : binade + p % binade < 2 ^ 53 := by
    have rest := Nat.mod_lt p binade_pos
    rw [binade_eq] at *
    omega
  rw [units, if_neg normal, Nat.pow_eq] at *
  rw [one_eq] at *
  generalize 1074 = n at *
  generalize binade + p % binade = m at *
  generalize p / binade - 1 = d at *
  have weight : 2 ^ 53 * 2 ^ n < 2 ^ 53 * 2 ^ d :=
    least.trans_lt (Nat.mul_lt_mul_of_pos_right top (Nat.two_pow_pos d))
  have exponent : n < d :=
    (Nat.pow_lt_pow_iff_right one_lt_two).mp (Nat.lt_of_mul_lt_mul_left weight)
  rw [← pow_succ']
  exact Dvd.dvd.mul_left (pow_dvd_pow 2 exponent) m

theorem not_odd_of_large {x : Float} (large : 2 ^ 53 ≤ |value x|) {n : Int} (whole : value x = n) :
    ¬Odd n := by
  have size : magnitude (pattern x) = n.natAbs := by
    rw [← abs_value, whole, Nat.cast_natAbs, Int.cast_abs]
  rw [abs_value] at large
  have even := even_of_large large
  rw [(magnitude_eq_natCast_iff _ _).mp size, Nat.mul_comm 2 one] at even
  have twice : 2 ∣ n.natAbs := Nat.dvd_of_mul_dvd_mul_left one_pos even
  rwa [← Int.natAbs_odd, Nat.not_odd_iff_even, even_iff_two_dvd]

theorem not_odd_of_never {x : Float} (never : NeverOdd x) : isOddInteger x = false := by
  rw [Bool.eq_false_iff, ne_eq, isOddInteger_iff]
  rintro ⟨finite, n, odd, whole⟩
  cases never with
  | zero zero =>
    rw [(value_eq_zero_iff_zero x).mpr zero] at whole
    obtain rfl : n = 0 := by exact_mod_cast whole.symm
    exact absurd odd (by decide)
  | notANumber nan =>
    rw [isNaN_iff] at nan
    rw [isFinite_iff] at finite
    omega
  | infinite infinite =>
    rcases infinite with rfl | rfl
    · exact absurd finite (by decide)
    · exact absurd finite (by decide)
  | fraction fraction => exact fraction n whole
  | large large => exact not_odd_of_large large whole odd

/-- The test for odd numbers is exact on all doubles. -/
theorem isOddInteger_exact (x : Float) :
    (isOddInteger x = true ↔ x.isFinite = true ∧ ∃ k : Int, value x = 2 * k + 1) ∧
      (NeverOdd x → isOddInteger x = false) := by
  refine ⟨?_, not_odd_of_never⟩
  rw [isOddInteger_iff]
  refine and_congr_right' ?_
  constructor
  · rintro ⟨n, ⟨k, rfl⟩, whole⟩
    exact ⟨k, by rw [whole]; push_cast; rfl⟩
  · rintro ⟨k, whole⟩
    exact ⟨2 * k + 1, ⟨k, rfl⟩, by rw [whole]; push_cast; rfl⟩

theorem last_odd_double :
    isOddInteger (-9007199254740991.0) = true ∧ NeverOdd 9007199254740992.0 ∧
      isOddInteger 9007199254740992.0 = false := by
  have odd : value (-9007199254740991.0) = 2 * (-4503599627370496 : Int) + 1 := by decide +kernel
  have large : NeverOdd 9007199254740992.0 := .large (by decide +kernel)
  exact ⟨(isOddInteger_exact _).1.mpr ⟨by decide, -4503599627370496, odd⟩, large,
    (isOddInteger_exact _).2 large⟩

end Reckoner.Binary64

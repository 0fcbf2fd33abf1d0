import Mathlib
import Reckoner.Proofs.Number.Nearest

/- The exact values of doubles. Tests and comparisons of doubles are told by the patterns, and those
   of finite doubles by their values. -/
namespace Reckoner.Binary64
open Float.Model Float.Model.UnpackedFloat

def value (x : Float) : Rat :=
  if isNegative x then -magnitude (pattern x) else magnitude (pattern x)

theorem magnitude_nonneg (p : Nat) : 0 ≤ magnitude p :=
  div_nonneg (Nat.cast_nonneg _) one_cast_pos.le

theorem magnitude_pos_iff (p : Nat) : 0 < magnitude p ↔ p ≠ 0 := by
  rw [← magnitude_zero, magnitude_strictMono.lt_iff_lt, Nat.pos_iff_ne_zero]

theorem abs_value (x : Float) : |value x| = magnitude (pattern x) := by
  have size := abs_of_nonneg (magnitude_nonneg (pattern x))
  unfold value
  split
  · rw [abs_neg, size]
  · exact size

theorem value_eq_zero_iff (x : Float) : value x = 0 ↔ pattern x = 0 := by
  rw [← abs_eq_zero, abs_value, ← magnitude_zero, magnitude_strictMono.injective.eq_iff]

theorem value_neg_iff (x : Float) : value x < 0 ↔ isNegative x = true ∧ pattern x ≠ 0 := by
  unfold value
  cases isNegative x with
  | false => simpa using magnitude_nonneg (pattern x)
  | true => simpa using magnitude_pos_iff (pattern x)

section Classes

theorem signed_class (s : Sign) {p : Nat} (number : p ≤ infinitePattern) :
    (signed s p).isNaN = false ∧ ((signed s p).isInf = true ↔ p = infinitePattern) ∧
      ((signed s p).isFinite = true ↔ p < infinitePattern) := by
  unfold signed
  split_ifs with infinite
  · subst infinite
    simp [UnpackedFloat.isNaN, UnpackedFloat.isInf, UnpackedFloat.isFinite]
  all_goals
    have finite : p < infinitePattern := number.lt_of_ne infinite
    simp [UnpackedFloat.isNaN, UnpackedFloat.isInf, UnpackedFloat.isFinite, infinite, finite]

/-- The class of a double is that of what its bits stand for. -/
theorem class_iff (x : Float) :
    (x.isNaN = true ↔ infinitePattern < pattern x) ∧
      (x.isInf = true ↔ pattern x = infinitePattern) ∧
      (x.isFinite = true ↔ pattern x < infinitePattern) := by
  by_cases number : pattern x ≤ infinitePattern
  · obtain ⟨notNan, infinite, finite⟩ := signed_class (signOf (isNegative x)) number
    rw [← unpack_eq number] at notNan infinite finite
    refine ⟨?_, infinite, finite⟩
    have same : x.isNaN = x.toModel.unpack.isNaN := rfl
    rw [same, notNan]
    simp [number]
  · have beyond := Nat.lt_of_not_le number
    have same : x.isNaN = true ∧ x.isInf = false ∧ x.isFinite = false := by
      rw [eq_nan beyond]
      decide
    obtain ⟨isNan, notInfinite, notFinite⟩ := same
    rw [isNan, notInfinite, notFinite]
    simp only [beyond, beyond.ne', beyond.not_gt, Bool.false_eq_true, and_self]

theorem isNaN_iff (x : Float) : x.isNaN = true ↔ infinitePattern < pattern x := (class_iff x).1

theorem isInf_iff (x : Float) : x.isInf = true ↔ pattern x = infinitePattern := (class_iff x).2.1

theorem isFinite_iff (x : Float) : x.isFinite = true ↔ pattern x < infinitePattern :=
  (class_iff x).2.2

theorem number_of_isFinite {x : Float} (finite : x.isFinite = true) : pattern x ≤ infinitePattern :=
  ((isFinite_iff x).mp finite).le

theorem eq_signed_infinity {x : Float} (infinite : x.isInf = true) :
    x = if isNegative x then -infinity else infinity := by
  have top := (isInf_iff x).mp infinite
  cases sign : isNegative x with
  | false =>
    have same := ofPattern_pattern top.le sign
    rw [top] at same
    exact same.symm
  | true =>
    have same := neg_ofPattern_pattern top.le sign
    rw [top] at same
    exact same.symm

end Classes

section Comparisons
variable {x : Float}

theorem zero_literal : pattern 0.0 = 0 ∧ isNegative 0.0 = false := by
  decide +kernel

theorem value_eq_zero_iff_zero (x : Float) : value x = 0 ↔ x = 0.0 ∨ x = -0.0 := by
  have literals : ofPattern 0 = (0.0 : Float) ∧ pattern 0.0 = 0 ∧ pattern (-0.0) = 0 := by
    decide +kernel
  rw [value_eq_zero_iff]
  constructor
  · intro null
    have number : pattern x ≤ infinitePattern := null ▸ Nat.zero_le _
    cases sign : isNegative x with
    | false => exact .inl (by rw [← ofPattern_pattern number sign, null, literals.1])
    | true => exact .inr (by rw [← neg_ofPattern_pattern number sign, null, literals.1])
  · rintro (rfl | rfl)
    · exact literals.2.1
    · exact literals.2.2

def onePattern : Nat := 0x3FF0000000000000

theorem one_literal : ofPattern onePattern = (1.0 : Float) ∧ pattern 1.0 = onePattern ∧
    pattern (-1.0) = onePattern := by
  decide +kernel

theorem compare_zero (s : Sign) (p : Nat) :
    (signed s p).compare (signed .positive 0) =
      some (if p = 0 then .eq else match s with | .negative => .lt | .positive => .gt) := by
  have zero : signed .positive 0 = .zero .positive := rfl
  rw [zero]
  obtain rfl | positive := p.eq_zero_or_pos
  · cases s <;> rfl
  · rw [if_neg positive.ne', signed]
    by_cases infinite : p = infinitePattern
    · rw [if_pos infinite]
      cases s <;> rfl
    · rw [if_neg infinite, dif_neg positive.ne']
      split <;> cases s <;> rfl

theorem compare_to_zero (number : pattern x ≤ infinitePattern) :
    x.toModel.unpack.compare (0.0 : Float).toModel.unpack =
      some (if value x = 0 then .eq else if value x < 0 then .lt else .gt) := by
  obtain ⟨zero, positive⟩ := zero_literal
  rw [unpack_eq number, unpack_eq (zero ▸ Nat.zero_le _), zero, positive]
  have compared := compare_zero (signOf (isNegative x)) (pattern x)
  simp only [value_eq_zero_iff, value_neg_iff]
  refine compared.trans (congrArg some ?_)
  cases isNegative x <;> by_cases null : pattern x = 0 <;> simp [signOf, null]

theorem lt_zero_iff (number : pattern x ≤ infinitePattern) : x < 0.0 ↔ value x < 0 := by
  have order : x < 0.0 ↔
      decide (x.toModel.unpack.lt (0.0 : Float).toModel.unpack = true) = true := Iff.rfl
  rw [order, UnpackedFloat.lt, compare_to_zero number]
  by_cases null : value x = 0
  · simp [null]
  · by_cases negative : value x < 0 <;> simp [null, negative]

theorem beq_zero_iff (number : pattern x ≤ infinitePattern) : (x == 0.0) = true ↔ value x = 0 := by
  have order : (x == 0.0) = (x.toModel.unpack.compare (0.0 : Float).toModel.unpack == some .eq) :=
    rfl
  rw [order, compare_to_zero number]
  by_cases null : value x = 0
  · simp [null]
  · by_cases negative : value x < 0 <;> simp [null, negative]

theorem abs_beq_one_iff : (x.abs == 1.0) = true ↔ x = 1.0 ∨ x = -1.0 := by
  obtain ⟨literal, positiveOne, negativeOne⟩ := one_literal
  by_cases number : pattern x ≤ infinitePattern
  · have order : (x.abs == 1.0) = (x.abs.toModel.unpack.compare (1.0 : Float).toModel.unpack ==
        some .eq) := rfl
    have bound : onePattern ≤ infinitePattern := by decide
    have size : (x.abs == 1.0) = true ↔ pattern x = onePattern := by
      rw [order, abs_eq number, ← literal, unpack_ofPattern number, unpack_ofPattern bound,
        compare_signed number bound]
      simp
    rw [size]
    constructor
    · intro same
      cases sign : isNegative x with
      | false => exact .inl (by rw [← ofPattern_pattern number sign, same, literal])
      | true => exact .inr (by rw [← neg_ofPattern_pattern number sign, same, literal])
    · rintro (rfl | rfl)
      · exact positiveOne
      · exact negativeOne
  · have unordered : (nan.abs == 1.0) = false ∧ nan ≠ 1.0 ∧ nan ≠ -1.0 := by decide +kernel
    rw [eq_nan (Nat.lt_of_not_le number)]
    simp [unordered]

end Comparisons

section Whole

theorem one_eq : one = 2 ^ 1074 := by
  unfold one
  generalize 1074 = n
  exact Nat.pow_eq

theorem magnitude_eq_natCast_iff (p n : Nat) : magnitude p = n ↔ units p = one * n := by
  rw [magnitude, div_eq_iff one_cast_pos.ne', mul_comm]
  exact_mod_cast Iff.rfl

theorem exists_value_eq_iff (x : Float) (P : Nat → Prop) :
    (∃ n : Int, P n.natAbs ∧ value x = n) ↔ ∃ n : Nat, P n ∧ magnitude (pattern x) = n := by
  constructor
  · rintro ⟨n, holds, whole⟩
    refine ⟨n.natAbs, holds, ?_⟩
    rw [← abs_value, whole, Nat.cast_natAbs, Int.cast_abs]
  · rintro ⟨n, holds, whole⟩
    unfold value
    split
    · exact ⟨-n, by simpa using holds, by rw [whole, Int.cast_neg, Int.cast_natCast]⟩
    · exact ⟨n, by simpa using holds, by rw [whole, Int.cast_natCast]⟩

theorem isInteger_iff (x : Float) :
    isInteger x = true ↔ x.isFinite = true ∧ ∃ n : Int, value x = n := by
  have sizes := exists_value_eq_iff x fun _ => True
  simp only [true_and] at sizes
  rw [isInteger, Bool.and_eq_true, decide_eq_true_eq, decide_eq_true_eq, isFinite_iff, sizes,
    ← Nat.dvd_iff_mod_eq_zero]
  exact and_congr_right' (exists_congr fun n => (magnitude_eq_natCast_iff _ n).symm)

theorem odd_multiple_iff {u k : Nat} (positive : 0 < k) :
    u % k = 0 ∧ u % (2 * k) ≠ 0 ↔ ∃ n, Odd n ∧ u = k * n := by
  constructor
  · rintro ⟨whole, rest⟩
    obtain ⟨n, rfl⟩ := Nat.dvd_of_mod_eq_zero whole
    refine ⟨n, ?_, rfl⟩
    rw [Nat.mul_comm 2 k, Nat.mul_mod_mul_left] at rest
    exact Nat.odd_iff.mpr (Nat.mod_two_ne_zero.mp (right_ne_zero_of_mul rest))
  · rintro ⟨n, odd, rfl⟩
    rw [Nat.mul_mod_right, Nat.mul_comm 2 k, Nat.mul_mod_mul_left, Nat.odd_iff.mp odd]
    exact ⟨rfl, by omega⟩

theorem nearest_one_eq_zero_iff (n : Nat) : nearest n one = 0 ↔ n = 0 := by
  constructor
  · intro null
    have rounds := @rounded_roundsTo n one one_pos
    have capped : nearest n one = min (rounded n one) infinitePattern := rfl
    have positive : 0 < infinitePattern := by decide
    have zero : rounded n one = 0 := by omega
    rw [zero] at rounds
    have below := (le_midpoint_iff one_pos 0).mp rounds.below
    have units_one : units 0 + units (0 + 1) = 1 := by decide
    rw [units_one, ← Nat.mul_assoc] at below
    have few := Nat.le_of_mul_le_mul_right below one_pos
    omega
  · rintro rfl
    refine nearest_eq one_pos ?_ (Nat.zero_le _)
    rw [Nat.cast_zero, zero_div, ← magnitude_zero]
    exact roundsTo_magnitude 0

theorem pattern_remainder (x y : Float) :
    pattern (remainder x y) = nearest (units (pattern x) % units (pattern y)) one := by
  have bound : nearest (units (pattern x) % units (pattern y)) one ≤ infinitePattern :=
    Nat.min_le_right _ _
  have plain := pattern_ofPattern bound
  simp only [remainder]
  split
  · rw [(neg_fields (plain.trans_le bound)).2, plain]
  · exact plain

theorem remainder_eq_zero_iff (x y : Float) :
    (remainder x y == 0.0) = true ↔ units (pattern x) % units (pattern y) = 0 := by
  have shape := pattern_remainder x y
  have number : pattern (remainder x y) ≤ infinitePattern := by
    rw [shape]
    exact Nat.min_le_right _ _
  rw [beq_zero_iff number, value_eq_zero_iff, shape, nearest_one_eq_zero_iff]

theorem two_literal : units (pattern 2.0) = 2 * one := by
  decide +kernel

theorem isOddInteger_iff (x : Float) :
    isOddInteger x = true ↔ x.isFinite = true ∧ ∃ n : Int, Odd n ∧ value x = n := by
  have sizes := exists_value_eq_iff x Odd
  simp only [Int.natAbs_odd, magnitude_eq_natCast_iff] at sizes
  rw [sizes, ← odd_multiple_iff one_pos, isOddInteger, isInteger, Bool.and_eq_true,
    Bool.and_eq_true, Bool.and_eq_true, bne, Bool.not_eq_true', ← Bool.not_eq_true,
    remainder_eq_zero_iff, two_literal, decide_eq_true_eq, decide_eq_true_eq, isFinite_iff]
  constructor
  · rintro ⟨⟨bound, -, whole⟩, odd⟩
    exact ⟨bound, whole, odd⟩
  · rintro ⟨bound, whole, odd⟩
    exact ⟨⟨bound, bound, whole⟩, odd⟩

end Whole

end Reckoner.Binary64

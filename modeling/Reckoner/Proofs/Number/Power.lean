import Mathlib
import Reckoner.Number.Arithmetic
import Reckoner.Proofs.Number.Rounding

/- Powers are those of any power function with the laws of the floating-point standard, although the
   values of powers that fail are put back from the base and the exponent alone. Only undefined
   powers, some of which are one by the standard, are NaN. -/
namespace Reckoner.Arithmetic
open Binary64

/-- The exponent is NaN, or infinite over a base of magnitude one. -/
def Undefined (a b : Float) : Prop :=
  b.isNaN = true ∨ b.isInf = true ∧ (a = 1.0 ∨ a = -1.0)

def IsWhole (b : Float) : Prop := ∃ n : Int, value b = n

def IsOdd (b : Float) : Prop := ∃ n : Int, Odd n ∧ value b = n

structure FinitePair (a b : Float) : Prop where
  base : a.isFinite = true
  exponent : b.isFinite = true

/-- Zero to a power below zero. -/
structure Pole (a b : Float) : Prop extends FinitePair a b where
  zero : value a = 0
  below : value b < 0

/-- A negative number to a fraction. -/
structure Imaginary (a b : Float) : Prop extends FinitePair a b where
  negative : value a < 0
  fraction : ¬IsWhole b

structure Overflows (pow : Float → Float → Float) (a b : Float) : Prop extends FinitePair a b where
  nonzero : value a ≠ 0
  whole : value a < 0 → IsWhole b
  beyond : (pow a b).isInf = true

/-- What the standard says of poles, of negative numbers to fractions, and of the sign of powers
that are too large, which is the sign of the exact power. -/
structure PowerLaws (pow : Float → Float → Float) : Prop where
  odd_pole : ∀ a b, Pole a b → IsOdd b → pow a b = signedInfinity (isNegative a)
  other_pole : ∀ a b, Pole a b → ¬IsOdd b → pow a b = infinity
  imaginary : ∀ a b, Imaginary a b → pow a b = nan
  overflow : ∀ a b, Overflows pow a b →
    (isNegative (pow a b) = true ↔ (value a : ℝ) ^ (value b : ℝ) < 0)

variable {pow : Float → Float → Float} {a b : Float}

section Tests

theorem isInteger_iff_isWhole (finite : b.isFinite = true) : isInteger b = true ↔ IsWhole b := by
  rw [isInteger_iff, IsWhole]
  exact and_iff_right finite

theorem isOddInteger_iff_isOdd (finite : b.isFinite = true) : isOddInteger b = true ↔ IsOdd b := by
  rw [isOddInteger_iff, IsOdd]
  exact and_iff_right finite

theorem undefined_test (a b : Float) :
    (b.isNaN || (b.isInf && a.abs == 1.0)) = true ↔ Undefined a b := by
  rw [Bool.or_eq_true, Bool.and_eq_true, abs_beq_one_iff]
  rfl

theorem not_undefined (finite : FinitePair a b) : ¬Undefined a b := by
  have bound := (isFinite_iff b).mp finite.exponent
  unfold Undefined
  rw [isNaN_iff, isInf_iff]
  rintro (nan | ⟨infinite, -⟩) <;> omega

theorem negative_test (finite : FinitePair a b) : (a < 0.0 ∧ isOddInteger b = true) ↔
    value a < 0 ∧ IsOdd b := by
  rw [lt_zero_iff (number_of_isFinite finite.base), isOddInteger_iff_isOdd finite.exponent]

theorem pole_test (finite : FinitePair a b) :
    (a == 0.0 && b < 0.0) = true ↔ Pole a b := by
  rw [Bool.and_eq_true, decide_eq_true_eq, beq_zero_iff (number_of_isFinite finite.base),
    lt_zero_iff (number_of_isFinite finite.exponent)]
  exact ⟨fun ⟨zero, below⟩ => ⟨finite, zero, below⟩, fun pole => ⟨pole.zero, pole.below⟩⟩

theorem imaginary_test (finite : FinitePair a b) :
    (a < 0.0 && !isInteger b) = true ↔ Imaginary a b := by
  rw [Bool.and_eq_true, decide_eq_true_eq, Bool.not_eq_true', ← Bool.not_eq_true,
    isInteger_iff_isWhole finite.exponent, lt_zero_iff (number_of_isFinite finite.base)]
  exact ⟨fun ⟨negative, fraction⟩ => ⟨finite, negative, fraction⟩,
    fun imaginary => ⟨imaginary.negative, imaginary.fraction⟩⟩

theorem domain_test (finite : FinitePair a b) :
    ((a == 0.0 && b < 0.0) || (a < 0.0 && !isInteger b)) = true ↔ Pole a b ∨ Imaginary a b := by
  rw [Bool.or_eq_true, pole_test finite, imaginary_test finite]

theorem overflow_test (finite : FinitePair a b) (inside : ¬Imaginary a b) :
    (a != 0.0 && (pow a b).isInf) = true ↔ Overflows pow a b := by
  rw [Bool.and_eq_true, bne, Bool.not_eq_true', ← Bool.not_eq_true,
    beq_zero_iff (number_of_isFinite finite.base)]
  constructor
  · rintro ⟨nonzero, beyond⟩
    have whole : value a < 0 → IsWhole b := by
      intro negative
      by_contra fraction
      exact inside ⟨finite, negative, fraction⟩
    exact ⟨finite, nonzero, whole, beyond⟩
  · rintro overflows
    exact ⟨overflows.nonzero, overflows.beyond⟩

/-- What becomes of a pair of doubles. -/
theorem checkedPower_cases (pow : Float → Float → Float) (a b : Float) :
    (Pole a b ∨ Imaginary a b) ∧ checkedPower pow a b = .error .domain ∨
      Overflows pow a b ∧ checkedPower pow a b = .error .overflow ∨
      checkedPower pow a b = .ok (pow a b) := by
  unfold checkedPower
  split
  · rename_i both
    have finite : FinitePair a b := by
      rw [Bool.and_eq_true] at both
      exact ⟨both.1, both.2⟩
    split
    · rename_i outside
      exact .inl ⟨(domain_test finite).mp outside, rfl⟩
    · rename_i inside
      rw [domain_test finite, not_or] at inside
      split
      · rename_i beyond
        exact .inr (.inl ⟨(overflow_test finite inside.2).mp beyond, rfl⟩)
      · exact .inr (.inr rfl)
  · exact .inr (.inr rfl)

end Tests

section Values

theorem cast_odd_iff (n : Int) : (∃ m : Int, Odd m ∧ (n : Rat) = m) ↔ Odd n := by
  constructor
  · rintro ⟨m, odd, same⟩
    rwa [Int.cast_inj.mp same]
  · exact fun odd => ⟨n, odd, rfl⟩

theorem rpow_neg_iff {x y : Rat} (nonzero : x ≠ 0) (whole : x < 0 → ∃ n : Int, y = n) :
    (x : ℝ) ^ (y : ℝ) < 0 ↔ x < 0 ∧ ∃ n : Int, Odd n ∧ y = n := by
  rcases nonzero.lt_or_gt with negative | positive
  · obtain ⟨n, rfl⟩ := whole negative
    have base : (x : ℝ) < 0 := by exact_mod_cast negative
    rw [Rat.cast_intCast, Real.rpow_intCast, cast_odd_iff]
    rcases n.even_or_odd with even | odd
    · have least := even.zpow_pos (by exact_mod_cast nonzero : (x : ℝ) ≠ 0)
      simp [least.not_gt, negative, Int.not_odd_iff_even.mpr even]
    · simp [odd.zpow_neg base, negative, odd]
  · have least : (0 : ℝ) < (x : ℝ) ^ (y : ℝ) := Real.rpow_pos_of_pos (by exact_mod_cast positive) _
    simp [least.not_gt, positive.not_gt]

theorem signedInfinity_isNegative {x : Float} (infinite : x.isInf = true) :
    signedInfinity (isNegative x) = x :=
  (eq_signed_infinity infinite).symm

variable (laws : PowerLaws pow)
include laws

theorem pow_of_overflows (overflows : Overflows pow a b) :
    pow a b = signedInfinity (a < 0.0 && isOddInteger b) := by
  have sign := laws.overflow a b overflows
  rw [rpow_neg_iff overflows.nonzero overflows.whole] at sign
  have test := sign.trans (negative_test overflows.toFinitePair).symm
  have same : (decide (a < 0.0) && isOddInteger b) = isNegative (pow a b) := by
    rw [Bool.eq_iff_iff, Bool.and_eq_true, decide_eq_true_eq, test]
  rw [same, signedInfinity_isNegative overflows.beyond]

theorem pow_of_pole (pole : Pole a b) :
    pow a b = signedInfinity (isNegative a && isOddInteger b) := by
  have test := isOddInteger_iff_isOdd pole.exponent
  by_cases odd : IsOdd b
  · rw [laws.odd_pole a b pole odd, test.mpr odd, Bool.and_true]
  · have notOdd : isOddInteger b = false := Bool.eq_false_iff.mpr (test.not.mpr odd)
    rw [laws.other_pole a b pole odd, notOdd, Bool.and_false]
    rfl

theorem powerWith_of_defined (defined : ¬Undefined a b) : powerWith pow a b = pow a b := by
  rw [powerWith, if_neg ((undefined_test a b).not.mpr defined)]
  rcases checkedPower_cases pow a b with
    ⟨pole | imaginary, failed⟩ | ⟨overflows, failed⟩ | passed
  · have zero := (beq_zero_iff (number_of_isFinite pole.base)).mpr pole.zero
    rw [failed, pow_of_pole laws pole]
    simp only [zero, if_true]
  · have nonzero := (beq_zero_iff (number_of_isFinite imaginary.base)).not.mpr imaginary.negative.ne
    rw [failed, laws.imaginary a b imaginary]
    simp only [nonzero, Bool.false_eq_true, if_false]
  · rw [failed, pow_of_overflows laws overflows]
  · rw [passed]

end Values

/-- Powers are NaN where they are undefined and those of the power function everywhere else. Those
that fail are put back: too large a power is infinite, negative for an odd power of a negative
number; zero to a power below zero is infinite, with its sign for an odd power; a negative number to
a fraction is NaN. -/
theorem power_restored (laws : PowerLaws pow) (a b : Float) :
    (Undefined a b → powerWith pow a b = nan) ∧
      (¬Undefined a b → powerWith pow a b = pow a b) ∧
      (Overflows pow a b →
        (value a < 0 ∧ IsOdd b → powerWith pow a b = -infinity) ∧
          (¬(value a < 0 ∧ IsOdd b) → powerWith pow a b = infinity)) ∧
      (Pole a b →
        (IsOdd b → powerWith pow a b = signedInfinity (isNegative a)) ∧
          (¬IsOdd b → powerWith pow a b = infinity)) ∧
      (Imaginary a b → powerWith pow a b = nan) := by
  have restored : ∀ defined : FinitePair a b, powerWith pow a b = pow a b := fun finite =>
    powerWith_of_defined laws (not_undefined finite)
  refine ⟨?_, powerWith_of_defined laws, ?_, ?_, ?_⟩
  · intro undefined
    rw [powerWith, if_pos ((undefined_test a b).mpr undefined)]
  · intro overflows
    have test := negative_test overflows.toFinitePair
    rw [restored overflows.toFinitePair, pow_of_overflows laws overflows]
    constructor
    · intro negative
      obtain ⟨below, odd⟩ := test.mpr negative
      rw [signedInfinity, decide_eq_true below, odd]
      rfl
    · intro other
      have notBoth : (decide (a < 0.0) && isOddInteger b) = false := by
        rw [Bool.eq_false_iff, ne_eq, Bool.and_eq_true, decide_eq_true_eq]
        exact test.not.mpr other
      rw [notBoth]
      rfl
  · intro pole
    rw [restored pole.toFinitePair]
    exact ⟨laws.odd_pole a b pole, laws.other_pole a b pole⟩
  · intro imaginary
    rw [restored imaginary.toFinitePair, laws.imaginary a b imaginary]

section Whole

def ofRat (r : Rat) : Float :=
  let size := ofPattern (nearest r.num.natAbs r.den)
  if r < 0 then -size else size

/-- Exact powers rounded, for whole exponents. There are none for fractions, and infinite powers of
numbers of magnitude one are one. -/
def wholePower (a b : Float) : Float :=
  if a == 0.0 && b < 0.0 then signedInfinity (isNegative a && isOddInteger b)
  else if b.isInf && a.abs == 1.0 then 1.0
  else if isInteger b then ofRat (value a ^ (value b).num)
  else nan

theorem ofRat_infinite {r : Rat} (infinite : (ofRat r).isInf = true) :
    isNegative (ofRat r) = true ↔ r < 0 := by
  have bound : nearest r.num.natAbs r.den ≤ infinitePattern := Nat.min_le_right _ _
  unfold ofRat at *
  generalize nearest r.num.natAbs r.den = p at *
  by_cases negative : r < 0
  · have flipped : (-ofPattern p).isInf = (signed .negative p).isInf := by
      have bits : (-ofPattern p).isInf =
          (Float.Model.pack (ofPattern p).toModel.unpack.neg).unpack.isInf := rfl
      rw [bits, unpack_ofPattern bound, neg_signed, unpack_pack_signed _ bound]
      rfl
    simp only [if_pos negative, flipped, (signed_class .negative bound).2.1] at infinite
    have sign : isNegative (-ofPattern infinitePattern) = true := by decide +kernel
    simp only [infinite, negative, if_true, sign]
  · simp [negative, isNegative_ofPattern bound]

theorem wholePower_pole (pole : Pole a b) :
    wholePower a b = signedInfinity (isNegative a && isOddInteger b) := by
  rw [wholePower, if_pos ((pole_test pole.toFinitePair).mpr pole)]

theorem wholePower_finite (finite : FinitePair a b) (inside : ¬Pole a b) :
    wholePower a b = if isInteger b then ofRat (value a ^ (value b).num) else nan := by
  have bounded : ¬(b.isInf && a.abs == 1.0) = true := by
    intro infinite
    exact not_undefined finite ((undefined_test a b).mp (by rw [infinite, Bool.or_true]))
  rw [wholePower, if_neg ((pole_test finite).not.mpr inside), if_neg bounded]

theorem wholePower_fraction (finite : FinitePair a b) (inside : ¬Pole a b) (fraction : ¬IsWhole b) :
    wholePower a b = nan := by
  rw [wholePower_finite finite inside,
    if_neg ((isInteger_iff_isWhole finite.exponent).not.mpr fraction)]

theorem wholePower_whole (finite : FinitePair a b) (inside : ¬Pole a b) {n : Int}
    (whole : value b = n) : wholePower a b = ofRat (value a ^ n) := by
  rw [wholePower_finite finite inside,
    if_pos ((isInteger_iff_isWhole finite.exponent).mpr ⟨n, whole⟩), whole, Rat.num_intCast]

theorem wholePower_laws : PowerLaws wholePower := by
  constructor
  · intro a b pole odd
    rw [wholePower_pole pole, (isOddInteger_iff_isOdd pole.exponent).mpr odd, Bool.and_true]
  · intro a b pole other
    have test := (isOddInteger_iff_isOdd pole.exponent).not.mpr other
    rw [wholePower_pole pole, Bool.eq_false_iff.mpr test, Bool.and_false]
    rfl
  · intro a b imaginary
    have inside : ¬Pole a b := fun pole => imaginary.negative.ne pole.zero
    exact wholePower_fraction imaginary.toFinitePair inside imaginary.fraction
  · intro a b overflows
    have inside : ¬Pole a b := fun pole => overflows.nonzero pole.zero
    have beyond := overflows.beyond
    by_cases whole : IsWhole b
    · obtain ⟨n, whole⟩ := whole
      rw [wholePower_whole overflows.toFinitePair inside whole] at beyond ⊢
      rw [ofRat_infinite beyond, whole, Rat.cast_intCast, Real.rpow_intCast]
      exact_mod_cast Iff.rfl
    · rw [wholePower_fraction overflows.toFinitePair inside whole] at beyond
      exact absurd beyond (by decide)

/-- Minus ten to the power of 309, minus zero to the third power below zero, a root of minus eight,
and an infinite power of minus one, which is one by the standard. -/
theorem powers_that_fail :
    PowerLaws wholePower ∧ powerWith wholePower (-10.0) 309.0 = -infinity ∧
      powerWith wholePower (-0.0) (-3.0) = -infinity ∧ powerWith wholePower (-8.0) 0.5 = nan ∧
      wholePower (-1.0) infinity = 1.0 ∧ powerWith wholePower (-1.0) infinity = nan := by
  have laws := wholePower_laws
  have overflow : Overflows wholePower (-10.0) 309.0 ∧ value (-10.0) < 0 ∧ IsOdd 309.0 := by
    have finite : FinitePair (-10.0) 309.0 := ⟨by decide +kernel, by decide +kernel⟩
    have whole : IsWhole 309.0 := (isInteger_iff_isWhole finite.exponent).mp (by decide +kernel)
    exact ⟨(overflow_test finite (·.fraction whole)).mp (by decide +kernel),
      (negative_test finite).mp (by decide +kernel)⟩
  have pole : Pole (-0.0) (-3.0) ∧ IsOdd (-3.0) := by
    have finite : FinitePair (-0.0) (-3.0) := ⟨by decide +kernel, by decide +kernel⟩
    exact ⟨(pole_test finite).mp (by decide +kernel),
      (isOddInteger_iff_isOdd finite.exponent).mp (by decide +kernel)⟩
  have imaginary : Imaginary (-8.0) 0.5 := by
    have finite : FinitePair (-8.0) 0.5 := ⟨by decide +kernel, by decide +kernel⟩
    exact ⟨finite, by decide +kernel,
      (isInteger_iff_isWhole finite.exponent).not.mp (by decide +kernel)⟩
  have undefined : Undefined (-1.0) infinity := .inr ⟨by decide +kernel, .inr rfl⟩
  refine ⟨laws, ?_, ?_, ?_, by decide +kernel, ?_⟩
  · exact ((power_restored laws _ _).2.2.1 overflow.1).1 overflow.2
  · have sign : signedInfinity (isNegative (-0.0)) = -infinity := by decide +kernel
    rw [((power_restored laws _ _).2.2.2.1 pole.1).1 pole.2, sign]
  · exact (power_restored laws _ _).2.2.2.2 imaginary
  · exact (power_restored laws _ _).1 undefined

end Whole
end Reckoner.Arithmetic

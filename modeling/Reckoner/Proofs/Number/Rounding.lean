import Mathlib
import Reckoner.Proofs.Number.Exact
import Reckoner.Proofs.Number.Shortest

/- Correct rounding. No double is nearer to a number than the one that it rounds to, and numbers
   from half a step above the largest finite double round to infinity. -/
namespace Reckoner.Binary64

section Distance
variable {r a b : Rat}

theorem nearer_lower_iff (order : a < b) : |r - a| ≤ |r - b| ↔ 2 * r ≤ a + b := by
  rw [← sq_le_sq, ← sub_nonneg, ← sub_nonneg (a := a + b),
    show (r - b) ^ 2 - (r - a) ^ 2 = (b - a) * (a + b - 2 * r) by ring,
    mul_nonneg_iff_of_pos_left (sub_pos.mpr order)]

theorem nearer_upper_iff (order : a < b) : |r - b| ≤ |r - a| ↔ a + b ≤ 2 * r := by
  rw [← sq_le_sq, ← sub_nonneg, ← sub_nonneg (a := 2 * r),
    show (r - a) ^ 2 - (r - b) ^ 2 = (b - a) * (2 * r - (a + b)) by ring,
    mul_nonneg_iff_of_pos_left (sub_pos.mpr order)]

/-- Between the pattern that a number rounds to and any other stands a midpoint that the number does
not go beyond; the number is as near to the other only on the midpoint to a neighbour. -/
theorem RoundsTo.nearest {p : Nat} (rounds : RoundsTo r p) (q : Nat) :
    |r - magnitude p| ≤ |r - magnitude q| ∧
      (q ≠ p → |r - magnitude p| = |r - magnitude q| → p % 2 = 0) := by
  rcases lt_trichotomy q p with less | rfl | more
  · obtain ⟨k, rfl⟩ := Nat.exists_eq_succ_of_ne_zero (Nat.ne_of_gt (Nat.zero_lt_of_lt less))
    have order := magnitude_strictMono less
    have next := magnitude_strictMono.monotone (Nat.le_of_lt_succ less)
    have middle := midpoint_eq k
    have above := rounds.above k rfl
    refine ⟨(nearer_upper_iff order).mpr (by linarith), fun _ tie => ?_⟩
    have reached := (nearer_lower_iff order).mp tie.ge
    exact rounds.even_above k rfl (by linarith)
  · exact ⟨le_rfl, fun other => absurd rfl other⟩
  · have order := magnitude_strictMono more
    have next := magnitude_strictMono.monotone (Nat.succ_le_of_lt more)
    have middle := midpoint_eq p
    have below := rounds.below
    refine ⟨(nearer_lower_iff order).mpr (by linarith), fun _ tie => ?_⟩
    have reached := (nearer_upper_iff order).mp tie.ge
    exact rounds.even_below (by linarith)

end Distance

section Rounding
variable {r : Rat} {p : Nat}

/-- No finite double is nearer to the number, and if one is as near the last bit is zero. -/
structure NearestEven (r : Rat) (v : Float) : Prop where
  finite : v.isFinite = true
  nearest : ∀ w : Float, w.isFinite = true → |r - value v| ≤ |r - value w|
  even : ∀ w : Float, w.isFinite = true → value w ≠ value v → |r - value v| = |r - value w| →
    v.toBits.toNat % 2 = 0

theorem isNegative_ofPattern (number : p ≤ infinitePattern) :
    isNegative (ofPattern p) = false := by
  rw [isNegative, toBits_ofPattern number, decide_eq_false_iff_not, signBit_eq]
  rw [infinitePattern_eq] at number
  omega

theorem value_ofPattern (number : p ≤ infinitePattern) :
    value (ofPattern p) = magnitude p := by
  rw [value, isNegative_ofPattern number, pattern_ofPattern number]
  rfl

theorem nearer_magnitude (positive : 0 ≤ r) (w : Float) :
    |r - magnitude (pattern w)| ≤ |r - value w| := by
  have size := magnitude_nonneg (pattern w)
  unfold value
  split
  · rw [sub_neg_eq_add, abs_of_nonneg (add_nonneg positive size), abs_le]
    constructor <;> linarith
  · exact le_rfl

theorem RoundsTo.nearestEven (rounds : RoundsTo r p) (positive : 0 ≤ r)
    (finite : p < infinitePattern) : NearestEven r (ofPattern p) := by
  have exact_value := value_ofPattern finite.le
  constructor
  · rw [isFinite_iff, pattern_ofPattern finite.le]
    exact finite
  · intro w _
    rw [exact_value]
    exact (rounds.nearest _).1.trans (nearer_magnitude positive w)
  · intro w _ other tie
    rw [exact_value] at other tie
    rw [toBits_ofPattern finite.le]
    by_cases same : pattern w = p
    · -- a double of the same size has another value if the sign is other, and is as near to zero
      -- alone, which rounds to the pattern zero
      have size := abs_value w
      rw [same] at size
      have opposite := (eq_or_eq_neg_of_abs_eq size).resolve_left other
      have order : value w < magnitude p := by
        refine lt_of_le_of_ne ?_ other
        rw [opposite]
        exact neg_le_self (magnitude_nonneg p)
      have reached := (nearer_lower_iff order).mp tie.ge
      have null : r = magnitude 0 := by
        rw [magnitude_zero]
        linarith
      rw [rounds.unique (null ▸ roundsTo_magnitude 0)]
    · have near := nearer_magnitude positive w
      exact (rounds.nearest _).2 same ((rounds.nearest _).1.antisymm (near.trans tie.ge))

def overflow : Rat := 2 ^ 1024 - 2 ^ 970

theorem overflow_units :
    units (infinitePattern - 1) + units infinitePattern + 2 ^ 970 * (2 * one) =
      2 ^ 1024 * (2 * one) := by
  decide +kernel

theorem midpoint_last : midpoint (infinitePattern - 1) = overflow := by
  have sum := congrArg (Nat.cast : Nat → Rat) overflow_units
  simp only [Nat.cast_add, Nat.cast_mul, Nat.cast_pow, Nat.cast_ofNat] at sum
  have scale : (0 : Rat) < 2 * one := mul_pos two_pos one_cast_pos
  rw [midpoint, overflow, div_eq_iff scale.ne', sub_mul, eq_sub_iff_add_eq]
  exact sum

theorem RoundsTo.infinite_iff (rounds : RoundsTo r p) : infinitePattern ≤ p ↔ overflow ≤ r := by
  rw [← midpoint_last]
  constructor
  · intro infinite
    have above : p = p - 1 + 1 := by
      have : 0 < infinitePattern := by decide
      omega
    have order : infinitePattern - 1 ≤ p - 1 := by omega
    exact (midpoint_strictMono.monotone order).trans (rounds.above _ above)
  · intro reached
    by_contra finite
    have last : p = infinitePattern - 1 := by
      by_contra other
      have lower := midpoint_strictMono (by omega : p < infinitePattern - 1)
      exact absurd (reached.trans rounds.below) lower.not_ge
    subst last
    have even := rounds.even_below (rounds.below.antisymm reached)
    exact absurd even (by decide)

/-- The double to which a number that is not negative rounds. -/
structure CorrectlyRounded (r : Rat) (v : Float) : Prop where
  positive : isNegative v = false
  number : v.isNaN = false
  infinite : v = infinity ↔ overflow ≤ r
  nearest : r < overflow → NearestEven r v

theorem nearest_correctlyRounded {num den : Nat} (positive : 0 < den) :
    CorrectlyRounded (num / den) (ofPattern (nearest num den)) := by
  have rounds := @rounded_roundsTo num den positive
  have capped : nearest num den = min (rounded num den) infinitePattern := rfl
  rw [capped]
  generalize rounded num den = p at *
  have number : min p infinitePattern ≤ infinitePattern := Nat.min_le_right _ _
  constructor
  · exact isNegative_ofPattern number
  · have notNan := (isNaN_iff (ofPattern (min p infinitePattern))).not
    rw [pattern_ofPattern number, Nat.not_lt] at notNan
    simpa using notNan.mpr number
  · rw [← rounds.infinite_iff]
    constructor
    · intro same
      have patterns := congrArg pattern same
      rw [pattern_ofPattern number, infinity, pattern_ofPattern le_rfl] at patterns
      omega
    · intro infinite
      rw [Nat.min_eq_right infinite, infinity]
  · intro below
    have finite := Nat.lt_of_not_le fun infinite => below.not_ge (rounds.infinite_iff.mp infinite)
    rw [Nat.min_eq_left finite.le]
    exact rounds.nearestEven (div_nonneg (Nat.cast_nonneg _) (Nat.cast_nonneg _)) finite

end Rounding

section Signs
variable {x : Float} {r : Rat} {p : Nat}

theorem value_neg (number : pattern x ≤ infinitePattern) : value (-x) = -value x := by
  obtain ⟨sign, size⟩ := neg_fields number
  unfold value
  rw [sign, size]
  cases isNegative x <;> simp

theorem toBits_mod_two (x : Float) : x.toBits.toNat % 2 = pattern x % 2 := by
  rw [pattern, signBit_eq]
  omega

theorem isFinite_neg (finite : x.isFinite = true) : (-x).isFinite = true := by
  rw [isFinite_iff, (neg_fields (number_of_isFinite finite)).2, ← isFinite_iff]
  exact finite

theorem NearestEven.neg {v : Float} (near : NearestEven r v) : NearestEven (-r) (-v) := by
  have number := number_of_isFinite near.finite
  have opposite : ∀ u : Rat, |-r - u| = |r - -u| := by
    intro u
    rw [← abs_neg]
    congr 1
    ring
  constructor
  · exact isFinite_neg near.finite
  · intro w finite
    rw [opposite, opposite, value_neg number, neg_neg, ← value_neg (number_of_isFinite finite)]
    exact near.nearest (-w) (isFinite_neg finite)
  · intro w finite other tie
    have valueW := value_neg (number_of_isFinite finite)
    rw [value_neg number] at other tie
    rw [opposite, opposite, neg_neg, ← valueW] at tie
    rw [toBits_mod_two, (neg_fields number).2, ← toBits_mod_two]
    refine near.even (-w) (isFinite_neg finite) ?_ tie
    rw [valueW]
    exact fun same => other (by rw [← same, neg_neg])

theorem ofSigned_eq (bound : p ≤ infinitePattern) :
    ofSigned false p = ofPattern p ∧ ofSigned true p = -ofPattern p := by
  constructor
  · obtain ⟨sign, size⟩ := ofSigned_fields false bound
    have same := ofPattern_pattern (size.trans_le bound) sign
    rw [← same, size]
  · obtain ⟨sign, size⟩ := ofSigned_fields true bound
    have same := neg_ofPattern_pattern (size.trans_le bound) sign
    rw [← same, size]

structure Rounding (r : Rat) (v : Float) : Prop where
  infinite : v.isInf = true ↔ overflow ≤ |r|
  nearest : |r| < overflow → NearestEven r v

theorem RoundsTo.rounding (rounds : RoundsTo |r| p) :
    Rounding r (ofSigned (decide (r < 0)) (min p infinitePattern)) := by
  have bound : min p infinitePattern ≤ infinitePattern := Nat.min_le_right _ _
  constructor
  · rw [isInf_iff, (ofSigned_fields _ bound).2, ← rounds.infinite_iff]
    omega
  · intro below
    have finite := Nat.lt_of_not_le fun infinite => below.not_ge (rounds.infinite_iff.mp infinite)
    have near := rounds.nearestEven (abs_nonneg r) finite
    rw [Nat.min_eq_left finite.le]
    by_cases negative : r < 0
    · rw [decide_eq_true negative, (ofSigned_eq finite.le).2]
      rw [abs_of_neg negative] at near
      rw [← neg_neg r]
      exact near.neg
    · rw [decide_eq_false negative, (ofSigned_eq finite.le).1]
      rwa [abs_of_nonneg (not_lt.mp negative)] at near

end Signs
end Reckoner.Binary64

namespace Reckoner.Decimal
open Binary64

theorem toFloat_correctlyRounded (d : Decimal) : CorrectlyRounded d.value d.toFloat := by
  rw [value_eq_div]
  exact nearest_correctlyRounded (Nat.pow_pos (by decide))

end Reckoner.Decimal

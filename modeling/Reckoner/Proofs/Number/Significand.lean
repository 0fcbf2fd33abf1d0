import Mathlib
import Reckoner.Proofs.Number.Exact

/- How the arithmetic of doubles rounds. A mantissa is cut short with two bits that say what is cut
   off; these are enough to round the whole quotient that it came from, however often it is shifted.
   What is packed in the end is the pattern that the quotient rounds to. -/
namespace Reckoner.Binary64
open Float.Model Float.Model.UnpackedFloat

section Carried
variable {num den : Nat} {em : ExtendedMantissa}

/-- The mantissa and the round bit count the halves in the quotient, and the sticky bit says whether
there is a rest. -/
def Carries (em : ExtendedMantissa) (num den : Nat) : Prop :=
  ∃ rest < den, 2 * num = den * (2 * em.mantissa + em.roundBit.toNat) + rest ∧
    (em.stickyBit = true ↔ rest ≠ 0)

theorem carries_quotient (positive : 0 < den) :
    Carries (.ofMantissaAndAccuracy (num / den) (accuracyOfFraction (num % den) den)) num den := by
  have split := Nat.div_add_mod num den
  have less := Nat.mod_lt num positive
  generalize num / den = m at *
  generalize num % den = rest at *
  -- half of the divisor, or none of it, is counted by the round bit
  have none : den * (2 * m + false.toNat) = 2 * (den * m) := by
    rw [Bool.toNat_false, Nat.add_zero, Nat.mul_left_comm]
  have half : den * (2 * m + true.toNat) = 2 * (den * m) + den := by
    rw [Bool.toNat_true, Nat.mul_add, Nat.mul_one, Nat.mul_left_comm]
  unfold accuracyOfFraction
  split
  · refine ⟨0, positive, ?_, by simp [ExtendedMantissa.ofMantissaAndAccuracy]⟩
    rw [ExtendedMantissa.ofMantissaAndAccuracy, none]
    omega
  · rcases Nat.lt_trichotomy (2 * rest) den with below | equal | above
    · rw [compare_lt_iff_lt.mpr below]
      refine ⟨2 * rest, below, ?_, ?_⟩
      · rw [ExtendedMantissa.ofMantissaAndAccuracy, none]
        omega
      · simp only [ExtendedMantissa.ofMantissaAndAccuracy, true_iff]
        omega
    · rw [compare_eq_iff_eq.mpr equal]
      refine ⟨0, positive, ?_, by simp [ExtendedMantissa.ofMantissaAndAccuracy]⟩
      rw [ExtendedMantissa.ofMantissaAndAccuracy, half]
      omega
    · rw [compare_gt_iff_gt.mpr above]
      refine ⟨2 * rest - den, by omega, ?_, ?_⟩
      · rw [ExtendedMantissa.ofMantissaAndAccuracy, half]
        omega
      · simp only [ExtendedMantissa.ofMantissaAndAccuracy, true_iff]
        omega

theorem carries_shiftRightOne (carries : Carries em num den) :
    Carries em.shiftRightOne num (den * 2) := by
  obtain ⟨rest, less, whole, sticky⟩ := carries
  rcases em with ⟨m, round, more⟩
  have bit : (m % 2 != 0).toNat = m % 2 := by
    rcases Nat.mod_two_eq_zero_or_one m with last | last <;> rw [last] <;> rfl
  have halved : den * 2 * (2 * (m / 2) + m % 2) = den * (2 * m) := by
    rw [Nat.div_add_mod, Nat.mul_assoc]
  -- the round bit becomes part of the rest
  refine ⟨den * round.toNat + rest, ?_, ?_, ?_⟩
  · cases round <;> simp only [Bool.toNat_true, Bool.toNat_false] <;> omega
  · simp only [ExtendedMantissa.shiftRightOne, bit, halved]
    rw [whole, Nat.mul_add, Nat.add_assoc]
  · simp only [ExtendedMantissa.shiftRightOne, Bool.or_eq_true, sticky]
    cases round with
    | false => simp
    | true =>
      simp only [Bool.toNat_true, true_or, true_iff]
      omega

theorem carries_shiftRight (carries : Carries em num den) (n : Nat) :
    Carries (em >>> n) num (den * 2 ^ n) := by
  induction n with
  | zero => rwa [pow_zero, Nat.mul_one]
  | succ n ih =>
    rw [pow_succ, ← Nat.mul_assoc]
    exact carries_shiftRightOne ih

theorem mantissa_bounds (carries : Carries em num den) :
    den * em.mantissa ≤ num ∧ num < den * (em.mantissa + 1) := by
  obtain ⟨rest, less, whole, -⟩ := carries
  rw [Nat.mul_add, Nat.mul_left_comm] at whole
  rw [Nat.mul_add_one]
  cases bit : em.roundBit <;> simp only [bit, Bool.toNat_true, Bool.toNat_false] at whole <;> omega

theorem roundedMantissa_eq (carries : Carries em num den) :
    em.roundedMantissa = roundDiv num den := by
  obtain ⟨low, high⟩ := mantissa_bounds carries
  obtain ⟨rest, less, whole, sticky⟩ := carries
  have positive : 0 < den := Nat.zero_lt_of_lt less
  have quotient : num / den = em.mantissa := Nat.div_eq_of_lt_le (by rwa [Nat.mul_comm])
    (by rwa [Nat.mul_comm])
  have split := Nat.div_add_mod num den
  rw [quotient] at split
  simp only [roundDiv, quotient]
  rcases em with ⟨m, round, more⟩
  simp only [Nat.mul_add, Nat.mul_left_comm den 2] at whole split
  cases round <;> cases more <;>
    simp only [Bool.toNat_true, Bool.toNat_false, Bool.false_eq_true, true_iff, false_iff,
      not_not, ExtendedMantissa.roundedMantissa, ExtendedMantissa.accuracy,
      Accuracy.roundToNearestEven] at whole sticky ⊢
  · rw [if_neg (by omega)]
  · rw [if_neg (by omega)]
  · by_cases odd : m % 2 = 1
    · rw [if_pos (by omega)]; omega
    · rw [if_neg (by omega)]; omega
  · rw [if_pos (by omega)]

end Carried

section Shifts

theorem one_cast : (one : Rat) = 2 ^ (1074 : Int) := by
  rw [one_eq]
  generalize number : 1074 = n
  have exponent : (1074 : Int) = n := by omega
  rw [exponent, zpow_natCast, Nat.cast_pow, Nat.cast_ofNat]

theorem target_eq (m : Nat) (e : Int) :
    Format.binary64.targetExponent (totalExponent m e) = max (m.log2 + e - 52) (-1074) := by
  simp only [Format.targetExponent, totalExponent, Format.mantissaBits, Format.minExponent]
  norm_num
  omega

theorem shift_eq {m : Nat} {e t : Int} (accuracy : Accuracy)
    (target : max (m.log2 + e - 52) (-1074) = t) (low : e ≤ t) :
    shiftToTargetExponent .binary64 m e accuracy =
      (ExtendedMantissa.ofMantissaAndAccuracy m accuracy >>> (t - e).toNat, t) := by
  have whole : e + ((t - e).toNat : Int) = t := by omega
  rw [shiftToTargetExponent, target_eq, target, shiftToExponent, whole]

theorem shift_rounded {k : Nat} {t : Int} (least : -1074 ≤ t) (top : k ≤ 2 * binade)
    (normal : -1074 < t → binade ≤ k) :
    ∃ m e, (shiftToTargetExponent .binary64 k t .exact).1.mantissa = m ∧
      (shiftToTargetExponent .binary64 k t .exact).2 = e ∧ -1074 ≤ e ∧ m < 2 * binade ∧
      (-1074 < e → binade ≤ m) ∧ (e + 1074) * binade + m = (t + 1074) * binade + k := by
  -- rounding up may have made the mantissa one bit too long, with a zero at the end
  rcases top.eq_or_lt with rfl | less
  · have long : (2 * binade).log2 = 53 := by decide
    have target : max ((2 * binade).log2 + t - 52) (-1074) = t + 1 := by omega
    have once : (t + 1 - t).toNat = 1 := by omega
    have halved : (ExtendedMantissa.ofMantissaAndAccuracy (2 * binade) .exact >>> 1).mantissa =
        binade := by
      decide
    rw [shift_eq .exact target (by omega), once]
    exact ⟨binade, t + 1, halved, rfl, by omega, by decide, fun _ => le_rfl,
      by rw [binade_eq]; omega⟩
  · have short : k.log2 < 53 := by
      by_cases null : k = 0
      · simp [null]
      · exact (Nat.log2_lt null).mpr less
    have target : max (k.log2 + t - 52) (-1074) = t := by
      by_cases last : -1074 < t
      · have positive : k ≠ 0 := by
          have := normal last
          rw [binade_eq] at this
          omega
        have leading : 52 ≤ k.log2 := (Nat.le_log2 positive).mpr (normal last)
        omega
      · omega
    have still : (t - t).toNat = 0 := by omega
    rw [shift_eq .exact target le_rfl, still]
    exact ⟨k, t, rfl, rfl, least, less, normal, rfl⟩

theorem pack_finite (s : Sign) {m : Nat} {e : Int} (some : 0 < m) (least : -1074 ≤ e)
    (top : m < 2 * binade) (normal : -1074 < e → binade ≤ m) {p : Nat}
    (count : (p : Int) = (e + 1074) * binade + m) :
    Float.Model.pack (.finite s m e some) =
      Float.Model.pack (signed s (min p infinitePattern)) := by
  rw [binade_eq] at *
  by_cases finite : p < infinitePattern
  · rw [Nat.min_eq_left finite.le]
    have positive : 0 < p := by omega
    obtain ⟨m', e', h, shape, count', least', top', normal'⟩ := signed_finite s positive finite
    rw [binade_eq] at *
    obtain rfl : e = e' := by omega
    obtain rfl : m = m' := by omega
    rw [shape]
  · rw [infinitePattern_eq] at finite
    have beyond : 2 ^ 11 ≤ (e + 1023 + 52).toNat + 1 := by omega
    have bits : UnpackedFloat.pack .binary64 (.finite s m e some) =
        UnpackedFloat.pack .binary64 (.infinity s) := by
      simp only [UnpackedFloat.pack]
      exact if_pos beyond
    rw [Nat.min_eq_right (by rw [infinitePattern_eq]; omega), signed, if_pos rfl]
    simp only [Float.Model.pack, bits]

theorem quotient_bounds {m num den : Nat} {e t : Int} (low : den * m ≤ num)
    (high : num < den * (m + 1)) (target : max (m.log2 + e - 52) (-1074) = t) (reached : e ≤ t) :
    num < 2 * binade * (den * 2 ^ (t - e).toNat) ∧
      (-1074 < t → binade * (den * 2 ^ (t - e).toNat) ≤ num) := by
  constructor
  · have bits : m + 1 ≤ 2 ^ (53 + (t - e).toNat) :=
      Nat.lt_log2_self.trans_le (Nat.pow_le_pow_right two_pos (by omega))
    calc num < den * (m + 1) := high
      _ ≤ den * 2 ^ (53 + (t - e).toNat) := Nat.mul_le_mul_left den bits
      _ = 2 * binade * (den * 2 ^ (t - e).toNat) := by rw [pow_add, binade_eq]; ring
  · intro above
    have bits : m.log2 = 52 + (t - e).toNat := by omega
    have some : m ≠ 0 := by
      rintro rfl
      rw [Nat.log2_zero] at bits
      omega
    have leading : 2 ^ (52 + (t - e).toNat) ≤ m := bits ▸ Nat.log2_self_le some
    calc binade * (den * 2 ^ (t - e).toNat) = den * 2 ^ (52 + (t - e).toNat) := by
          rw [pow_add, binade_eq]; ring
      _ ≤ den * m := Nat.mul_le_mul_left den leading
      _ ≤ num := low

theorem cast_two_pow {n : Int} (some : 0 ≤ n) : ((2 ^ n.toNat : Nat) : Rat) = 2 ^ n := by
  have whole : ((n.toNat : Nat) : Int) = n := Int.toNat_of_nonneg some
  rw [Nat.cast_pow, Nat.cast_ofNat, ← zpow_natCast, whole]

theorem quotient_scaled (num den : Nat) {e t : Int} (reached : e ≤ t) (least : -1074 ≤ t) :
    ((num * 2 ^ (t + 1074).toNat : Nat) / (den * 2 ^ (t - e).toNat * one : Nat) : Rat) =
      num / den * 2 ^ e := by
  have base : (2 : Rat) ≠ 0 := two_ne_zero
  rw [Nat.cast_mul, Nat.cast_mul, Nat.cast_mul, cast_two_pow (by omega), cast_two_pow (by omega),
    one_cast, mul_assoc, mul_div_mul_comm, ← zpow_add₀ base, ← zpow_sub₀ base]
  congr 2
  omega

/-- What the bits that are cut off leave of a quotient is enough to round it. -/
theorem pack_round (s : Sign) {m num den : Nat} {e : Int} {accuracy : Accuracy} (positive : 0 < den)
    (carries : Carries (.ofMantissaAndAccuracy m accuracy) num den)
    (reached : e ≤ max (m.log2 + e - 52) (-1074)) :
    ∃ p, Float.Model.pack (roundWithAccuracy .binary64 s m e accuracy) =
        Float.Model.pack (signed s (min p infinitePattern)) ∧
      RoundsTo ((num : Rat) / den * 2 ^ e) p := by
  have given : (ExtendedMantissa.ofMantissaAndAccuracy m accuracy).mantissa = m := by
    unfold ExtendedMantissa.ofMantissaAndAccuracy
    split <;> rfl
  obtain ⟨low, high⟩ := mantissa_bounds carries
  rw [given] at low high
  generalize target : max (m.log2 + e - 52) (-1074) = t at reached
  have least : -1074 ≤ t := by omega
  obtain ⟨top, bottom⟩ := quotient_bounds low high target reached
  have shifted := roundedMantissa_eq (carries_shiftRight carries (t - e).toNat)
  have step : 0 < den * 2 ^ (t - e).toNat := Nat.mul_pos positive (Nat.two_pow_pos _)
  have rounds := @roundsTo_scaled _ _ (t + 1074).toNat step top fun above => bottom (by omega)
  rw [quotient_scaled num den reached least] at rounds
  obtain ⟨m', e', mantissa, exponent, least', top', normal', count⟩ :=
    shift_rounded least (roundDiv_le step top) fun above => le_roundDiv step (bottom above)
  refine ⟨_, ?_, rounds⟩
  generalize roundDiv num _ = k at *
  rw [binade_eq] at *
  simp only [roundWithAccuracy, shift_eq accuracy target reached, shifted, mantissa, exponent]
  by_cases null : m' = 0
  · have none : (t + 1074).toNat * 4503599627370496 + k = 0 := by omega
    rw [dif_pos null, none]
    rfl
  · rw [dif_neg null]
    exact pack_finite s _ least' top' normal' (by rw [binade_eq]; omega)

end Shifts
end Reckoner.Binary64

import Mathlib
import Reckoner.Number.Shortest
import Reckoner.Proofs.Number.Nearest

/- The shortest decimal of a pattern rounds to the pattern, so it reads back as its double. -/
namespace Reckoner.Decimal
open Binary64

def value (d : Decimal) : Rat := d.digits * (10 : Rat) ^ d.exponent

theorem value_eq_div (d : Decimal) :
    d.value = ↑(d.digits * Nat.pow 10 d.exponent.toNat) / ↑(Nat.pow 10 (-d.exponent).toNat) := by
  simp only [value, Nat.pow_eq, Nat.cast_mul, Nat.cast_pow, Nat.cast_ofNat]
  rcases le_total 0 d.exponent with up | down
  · obtain ⟨n, exponent⟩ := Int.eq_ofNat_of_zero_le up
    simp [exponent]
  · obtain ⟨n, exponent⟩ := Int.eq_ofNat_of_zero_le (neg_nonneg.mpr down)
    rw [show d.exponent = -n by omega]
    simp [div_eq_mul_inv]

theorem toFloat_of_roundsTo {d : Decimal} {p : Nat} (rounds : RoundsTo d.value p)
    (bound : p ≤ infinitePattern) : d.toFloat = ofPattern p := by
  have positive : 0 < Nat.pow 10 (-d.exponent).toNat := Nat.pow_pos (by decide)
  rw [value_eq_div] at rounds
  rw [toFloat, nearest_eq positive rounds bound]

theorem scale_pos : 0 < scale := by
  unfold scale
  generalize places = n
  exact Nat.pow_pos (by decide)

theorem roundsTo_of_readsBack {p scaled : Nat} (back : readsBack p scaled = true) :
    RoundsTo (scaled / scale) p := by
  have twice : scaled * (2 * one) = 2 * (scaled * one) := Nat.mul_left_comm _ _ _
  simp only [readsBack, twice] at back
  split at back
  next even =>
    simp only [Bool.and_eq_true, decide_eq_true_eq] at back
    obtain ⟨low, high⟩ := back
    constructor
    · rintro q rfl
      exact (midpoint_le_iff scale_pos q).mpr low
    · exact (le_midpoint_iff scale_pos p).mpr high
    · intros
      exact even
    · intro
      exact even
  next odd =>
    simp only [Bool.and_eq_true, decide_eq_true_eq] at back
    obtain ⟨low, high⟩ := back
    constructor
    · rintro q rfl
      exact (midpoint_le_iff scale_pos q).mpr low.le
    · exact (le_midpoint_iff scale_pos p).mpr high.le
    · rintro q rfl tie
      exact absurd ((le_midpoint_iff scale_pos q).mp tie.ge) low.not_ge
    · intro tie
      exact absurd ((midpoint_le_iff scale_pos p).mp tie.ge) high.not_ge

theorem value_in_last_place (digits length : Nat) :
    value ⟨digits, length - (places : Int)⟩ = (digits * Nat.pow 10 length : Nat) / scale := by
  unfold scale
  generalize places = n
  simp only [value, Nat.pow_eq]
  rw [zpow_sub₀ (by norm_num), zpow_natCast, zpow_natCast, mul_div_assoc']
  push_cast
  rfl

theorem roundsTo_of_withDigits {p count : Nat} {d : Decimal}
    (found : withDigits? p count = some d) : RoundsTo d.value p := by
  obtain ⟨digits, first, rfl⟩ := Option.map_eq_some_iff.mp found
  have back := List.find?_some first
  generalize (Nat.toDigits 10 (units p * scale / one)).length - count = length at *
  rw [value_in_last_place]
  exact roundsTo_of_readsBack back

theorem exact_value (p : Nat) : (exact p).value = magnitude p := by
  have exponent : (exact p).exponent = -((1074 : Nat) : Int) := rfl
  rw [value, exponent]
  unfold exact magnitude one
  generalize 1074 = n
  simp only [Nat.pow_eq]
  rw [zpow_neg, zpow_natCast, show (10 : Rat) = 5 * 2 by norm_num, mul_pow]
  push_cast
  field_simp

theorem roundsTo_shortest (p : Nat) : RoundsTo (shortest p).value p := by
  unfold shortest
  cases found : (List.range' 1 17).findSome? (withDigits? p) with
  | none =>
    rw [Option.getD_none, exact_value]
    exact roundsTo_magnitude p
  | some d =>
    obtain ⟨count, -, some⟩ := List.exists_of_findSome?_eq_some found
    exact roundsTo_of_withDigits some

end Reckoner.Decimal

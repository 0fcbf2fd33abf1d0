import Mathlib
import Reckoner.Number.Binary64
import Reckoner.Proofs.Number.Pattern

/- Rounding. A rational number rounds to a pattern if it lies between the midpoints to the patterns
   next to it, on one of them only if the pattern is even. It rounds to no other pattern then, and
   the nearest pattern is this one. -/
namespace Reckoner.Binary64

section Units

theorem one_pos : 0 < one := by
  unfold one
  generalize 1074 = n
  exact Nat.two_pow_pos n

theorem one_cast_pos : (0 : Rat) < one := Nat.cast_pos.mpr one_pos

theorem units_of_le {p : Nat} (small : p ≤ 2 * binade) : units p = p := by
  unfold units
  rw [binade_eq] at *
  split
  · rfl
  · by_cases top : p = 2 * 4503599627370496
    · subst top
      decide
    · have exponent : p / 4503599627370496 = 1 := by omega
      rw [exponent, Nat.pow_eq]
      omega

theorem units_scaled (d : Nat) {m : Nat} (low : binade ≤ m) (high : m ≤ 2 * binade) :
    units (d * binade + m) = m * 2 ^ d := by
  unfold units
  rw [Nat.pow_eq, if_neg (by omega), Nat.mul_add_mod']
  rw [binade_eq] at *
  by_cases top : m = 2 * 4503599627370496
  · have exponent : (d * 4503599627370496 + m) / 4503599627370496 - 1 = d + 1 := by omega
    rw [exponent, top, Nat.mul_mod_left, pow_succ]
    omega
  · have exponent : (d * 4503599627370496 + m) / 4503599627370496 - 1 = d := by omega
    have mantissa : 4503599627370496 + m % 4503599627370496 = m := by omega
    rw [exponent, mantissa]

theorem units_succ (p : Nat) : units (p + 1) = units p + 2 ^ (p / binade - 1) := by
  by_cases small : p < binade
  · rw [units_of_le (by omega), units_of_le (by omega), Nat.div_eq_of_lt small]
    omega
  · have split : p = (p / binade - 1) * binade + (binade + p % binade) := by
      rw [binade_eq] at *
      omega
    have top : p % binade < binade := Nat.mod_lt p binade_pos
    generalize p / binade - 1 = d at *
    rw [split, Nat.add_assoc, units_scaled d (by omega) (by omega),
      units_scaled d (by omega) (by omega), Nat.add_mul, Nat.one_mul]

theorem units_strictMono : StrictMono units := by
  apply strictMono_nat_of_lt_succ
  intro p
  rw [units_succ]
  exact Nat.lt_add_of_pos_right (Nat.two_pow_pos _)

end Units

section Midpoints

/-- The exact value of a pattern, with infinity in its place in the row. -/
def magnitude (p : Nat) : Rat := units p / one

def midpoint (p : Nat) : Rat := (units p + units (p + 1)) / (2 * one)

/-- The pattern is the nearest one to the number, and of two the even one. -/
structure RoundsTo (r : Rat) (p : Nat) : Prop where
  above : ∀ q, p = q + 1 → midpoint q ≤ r
  below : r ≤ midpoint p
  even_above : ∀ q, p = q + 1 → midpoint q = r → p % 2 = 0
  even_below : r = midpoint p → p % 2 = 0

theorem magnitude_zero : magnitude 0 = 0 := by
  rw [magnitude, units_of_le (Nat.zero_le _), Nat.cast_zero, zero_div]

theorem magnitude_strictMono : StrictMono magnitude := by
  intro p q less
  exact div_lt_div_of_pos_right (by exact_mod_cast units_strictMono less) one_cast_pos

theorem midpoint_eq (p : Nat) : midpoint p = (magnitude p + magnitude (p + 1)) / 2 := by
  unfold midpoint magnitude
  rw [← add_div, div_div, mul_comm]

theorem midpoint_le_iff {num den : Nat} (positive : 0 < den) (p : Nat) :
    midpoint p ≤ num / den ↔ (units p + units (p + 1)) * den ≤ 2 * (num * one) := by
  have scale : (0 : Rat) < 2 * one := mul_pos two_pos one_cast_pos
  rw [midpoint, div_le_div_iff₀ scale (by exact_mod_cast positive), mul_left_comm]
  exact_mod_cast Iff.rfl

theorem le_midpoint_iff {num den : Nat} (positive : 0 < den) (p : Nat) :
    (num / den : Rat) ≤ midpoint p ↔ 2 * (num * one) ≤ (units p + units (p + 1)) * den := by
  have scale : (0 : Rat) < 2 * one := mul_pos two_pos one_cast_pos
  rw [midpoint, div_le_div_iff₀ (by exact_mod_cast positive) scale, mul_left_comm]
  exact_mod_cast Iff.rfl

theorem midpoint_strictMono : StrictMono midpoint := by
  intro p q less
  have low := magnitude_strictMono less
  have high := magnitude_strictMono (Nat.succ_lt_succ less)
  rw [midpoint_eq, midpoint_eq]
  linarith

theorem magnitude_lt_midpoint (p : Nat) : magnitude p < midpoint p := by
  have step := magnitude_strictMono (Nat.lt_succ_self p)
  rw [midpoint_eq]
  linarith

theorem midpoint_lt_magnitude (p : Nat) : midpoint p < magnitude (p + 1) := by
  have step := magnitude_strictMono (Nat.lt_succ_self p)
  rw [midpoint_eq]
  linarith

theorem roundsTo_magnitude (p : Nat) : RoundsTo (magnitude p) p := by
  constructor
  · rintro q rfl
    exact (midpoint_lt_magnitude q).le
  · exact (magnitude_lt_midpoint p).le
  · rintro q rfl tie
    exact absurd tie (midpoint_lt_magnitude q).ne
  · intro tie
    exact absurd tie (magnitude_lt_midpoint p).ne

theorem not_roundsTo_of_lt {r : Rat} {p q : Nat} (less : p < q) (lower : RoundsTo r p) :
    ¬RoundsTo r q := by
  intro upper
  obtain ⟨k, rfl⟩ := Nat.exists_eq_succ_of_ne_zero (Nat.ne_of_gt (Nat.zero_lt_of_lt less))
  have order : midpoint p ≤ midpoint k := midpoint_strictMono.monotone (Nat.le_of_lt_succ less)
  have fromBelow := lower.below
  have fromAbove := upper.above k rfl
  -- No room is left: the number is the midpoint of neighbours, and they are not both even.
  have same : midpoint p = midpoint k := by linarith
  have next : p = k := midpoint_strictMono.injective same
  have evenLower := lower.even_below (by linarith)
  have evenUpper := upper.even_above k rfl (by linarith)
  omega

theorem RoundsTo.unique {r : Rat} {p q : Nat} (hp : RoundsTo r p) (hq : RoundsTo r q) : p = q := by
  rcases lt_trichotomy p q with less | same | more
  · exact absurd hq (not_roundsTo_of_lt less hp)
  · exact same
  · exact absurd hp (not_roundsTo_of_lt more hq)

end Midpoints

section Quotients
variable {num den : Nat}

theorem roundDiv_spec (positive : 0 < den) :
    2 * (roundDiv num den * den) ≤ 2 * num + den ∧ 2 * num ≤ 2 * (roundDiv num den * den) + den ∧
      (2 * (roundDiv num den * den) = 2 * num + den ∨ 2 * num = 2 * (roundDiv num den * den) + den →
        roundDiv num den % 2 = 0) := by
  have split := Nat.div_add_mod num den
  have rest := Nat.mod_lt num positive
  rw [Nat.mul_comm] at split
  simp only [roundDiv]
  split
  · rw [Nat.add_mul, Nat.one_mul]
    omega
  · omega

theorem roundDiv_le {k : Nat} (positive : 0 < den) (less : num < k * den) :
    roundDiv num den ≤ k := by
  have low := (@roundDiv_spec num den positive).1
  by_contra more
  have least := Nat.mul_le_mul_right den (Nat.lt_of_not_le more)
  rw [Nat.add_one_mul] at least
  omega

theorem le_roundDiv {k : Nat} (positive : 0 < den) (enough : k * den ≤ num) :
    k ≤ roundDiv num den := by
  have high := (@roundDiv_spec num den positive).2.1
  by_contra fewer
  have most := Nat.mul_le_mul_right den (Nat.lt_of_not_le fewer)
  rw [Nat.add_one_mul] at most
  omega

theorem scaled_bounds (positive : 0 < den) {d : Nat} (exponent : (num / den).log2 - 52 = d) :
    num < 2 * binade * (den * 2 ^ d) ∧ (0 < d → binade * (den * 2 ^ d) ≤ num) := by
  have top : num / den < 2 ^ ((num / den).log2 + 1) := Nat.lt_log2_self
  constructor
  · have cap : 2 ^ ((num / den).log2 + 1) ≤ 2 ^ (53 + d) :=
      Nat.pow_le_pow_right (by decide) (by omega)
    have less := (Nat.div_lt_iff_lt_mul positive).mp (top.trans_le cap)
    rw [pow_add] at less
    calc num < 2 ^ 53 * 2 ^ d * den := less
      _ = 2 * binade * (den * 2 ^ d) := by rw [binade_eq]; ring
  · intro normal
    have nonzero : num / den ≠ 0 := by
      intro zero
      rw [zero, Nat.log2_zero] at exponent
      omega
    have bottom := (Nat.le_div_iff_mul_le positive).mp (Nat.log2_self_le nonzero)
    rw [show (num / den).log2 = 52 + d by omega, pow_add] at bottom
    calc binade * (den * 2 ^ d) = 2 ^ 52 * 2 ^ d * den := by rw [binade_eq]; ring
      _ ≤ num := bottom

theorem units_neighbours {d m : Nat} (normal : 0 < d → binade ≤ m) (high : m ≤ 2 * binade) :
    units (d * binade + m) = m * 2 ^ d ∧ m * 2 ^ d + 2 ^ d ≤ units (d * binade + m + 1) ∧
      ∀ q, d * binade + m = q + 1 → units q + 2 ^ d ≤ m * 2 ^ d ∨ (0 < d ∧ m = binade) := by
  have value : units (d * binade + m) = m * 2 ^ d := by
    obtain rfl | positive := d.eq_zero_or_pos
    · rw [Nat.zero_mul, Nat.zero_add, units_of_le high, pow_zero, Nat.mul_one]
    · exact units_scaled d (normal positive) high
  refine ⟨value, ?_, ?_⟩
  · have exponent : d ≤ (d * binade + m) / binade - 1 := by
      rw [binade_eq] at *
      omega
    rw [units_succ, value]
    exact Nat.add_le_add_left (Nat.pow_le_pow_right two_pos exponent) _
  · intro q previous
    by_cases leading : 0 < d ∧ m = binade
    · exact Or.inr leading
    · have exponent : d ≤ q / binade - 1 := by
        rw [binade_eq] at *
        omega
      have step := Nat.pow_le_pow_right two_pos exponent
      rw [previous, units_succ] at value
      exact Or.inl (by omega)

theorem roundsTo_scaled {d : Nat} (positive : 0 < den) (top : num < 2 * binade * den)
    (bottom : 0 < d → binade * den ≤ num) :
    RoundsTo ((num * 2 ^ d : Nat) / (den * one : Nat)) (d * binade + roundDiv num den) := by
  have unit : 0 < den * one := Nat.mul_pos positive one_pos
  have step : 0 < 2 ^ d := Nat.two_pow_pos d
  -- comparisons with midpoints in units
  have low_iff : ∀ p, midpoint p ≤ (num * 2 ^ d : Nat) / (den * one : Nat) ↔
      (units p + units (p + 1)) * den ≤ 2 * (num * 2 ^ d) := by
    intro p
    rw [midpoint_le_iff unit, ← Nat.mul_assoc, ← Nat.mul_assoc 2, Nat.mul_le_mul_right_iff one_pos]
  have high_iff : ∀ p, ((num * 2 ^ d : Nat) / (den * one : Nat) : Rat) ≤ midpoint p ↔
      2 * (num * 2 ^ d) ≤ (units p + units (p + 1)) * den := by
    intro p
    rw [le_midpoint_iff unit, ← Nat.mul_assoc 2, ← Nat.mul_assoc _ den,
      Nat.mul_le_mul_right_iff one_pos]
  obtain ⟨low, high, tie⟩ := @roundDiv_spec num den positive
  have capped := roundDiv_le positive top
  have normal := fun above => le_roundDiv positive (bottom above)
  generalize roundDiv num den = m at *
  -- the steps on both sides are those of the mantissa, so what is off by half a step at most lies
  -- between the midpoints
  obtain ⟨value, next, previous⟩ := units_neighbours normal capped
  have parity : m % 2 = 0 → (d * binade + m) % 2 = 0 := by
    rw [binade_eq]
    omega
  have scaled : m * den * 2 ^ d = m * 2 ^ d * den := by ring
  have half : den * 2 ^ d = 2 ^ d * den := Nat.mul_comm _ _
  have lowScaled := Nat.mul_le_mul_right (2 ^ d) low
  have highScaled := Nat.mul_le_mul_right (2 ^ d) high
  rw [Nat.add_mul, Nat.mul_assoc, Nat.mul_assoc 2 num, scaled, half] at lowScaled
  rw [Nat.add_mul, Nat.mul_assoc, Nat.mul_assoc 2 (m * den), scaled, half] at highScaled
  have nextScaled := Nat.mul_le_mul_right den next
  rw [Nat.add_mul] at nextScaled
  have even : 2 * (m * 2 ^ d * den) = 2 * (num * 2 ^ d) + 2 ^ d * den ∨
      2 * (num * 2 ^ d) = 2 * (m * 2 ^ d * den) + 2 ^ d * den → m % 2 = 0 := by
    rintro (equal | equal)
    · refine tie (.inl (Nat.eq_of_mul_eq_mul_right step ?_))
      rw [Nat.add_mul, Nat.mul_assoc, Nat.mul_assoc 2 num, scaled, half, equal]
    · refine tie (.inr (Nat.eq_of_mul_eq_mul_right step ?_))
      rw [Nat.add_mul, Nat.mul_assoc, Nat.mul_assoc 2 (m * den), scaled, half, equal]
  constructor
  · intro q above
    rw [low_iff, ← above, value, Nat.add_mul]
    rcases previous q above with smaller | ⟨leading, rfl⟩
    · have previousScaled := Nat.mul_le_mul_right den smaller
      rw [Nat.add_mul] at previousScaled
      omega
    · -- the step below is half as long, but nothing was rounded up to the leading one
      have less := units_strictMono (Nat.lt_succ_self q)
      rw [Nat.succ_eq_add_one, ← above, value] at less
      have previousScaled := Nat.mul_le_mul_right den less.le
      have enough := Nat.mul_le_mul_right (2 ^ d) (bottom leading)
      rw [scaled] at enough
      omega
  · rw [high_iff, value, Nat.add_mul]
    omega
  · intro q above equal
    have reached := (high_iff q).mp equal.ge
    rw [← above, value, Nat.add_mul] at reached
    apply parity
    rcases previous q above with smaller | ⟨above, rfl⟩
    · have previousScaled := Nat.mul_le_mul_right den smaller
      rw [Nat.add_mul] at previousScaled
      exact even (Or.inl (by omega))
    · decide
  · intro equal
    have reached := (low_iff _).mp equal.ge
    rw [value, Nat.add_mul] at reached
    exact parity (even (Or.inr (by omega)))

def rounded (num den : Nat) : Nat :=
  let scaled := num * one
  let dropped := (scaled / den).log2 - 52
  dropped * binade + roundDiv scaled (den * Nat.pow 2 dropped)

theorem rounded_roundsTo (positive : 0 < den) : RoundsTo (num / den) (rounded num den) := by
  simp only [rounded, Nat.pow_eq]
  generalize exponent : (num * one / den).log2 - 52 = d
  obtain ⟨top, bottom⟩ := scaled_bounds positive exponent
  have rounds := roundsTo_scaled (Nat.mul_pos positive (Nat.two_pow_pos d)) top bottom
  have same : ((num * one * 2 ^ d : Nat) / (den * 2 ^ d * one : Nat) : Rat) = num / den := by
    have step : ((2 ^ d * one : Nat) : Rat) ≠ 0 :=
      Nat.cast_ne_zero.mpr (Nat.mul_pos (Nat.two_pow_pos d) one_pos).ne'
    rw [Nat.mul_assoc num, Nat.mul_comm one, Nat.mul_assoc den, Nat.cast_mul num,
      Nat.cast_mul den, mul_div_mul_right _ _ step]
  rwa [same] at rounds

/-- Rounding is unique, so any pattern that the quotient rounds to is the nearest one. -/
theorem nearest_eq (positive : 0 < den) {p : Nat} (rounds : RoundsTo (num / den) p)
    (bound : p ≤ infinitePattern) : nearest num den = p := by
  have same := (rounded_roundsTo positive).unique rounds
  exact (congrArg (min · infinitePattern) same).trans (Nat.min_eq_left bound)

end Quotients
end Reckoner.Binary64

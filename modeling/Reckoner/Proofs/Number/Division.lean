import Mathlib
import Reckoner.Number.Arithmetic
import Reckoner.Proofs.Number.Rounding
import Reckoner.Proofs.Number.Significand

/- Division is that of the floating-point standard on all pairs of doubles. Quotients of finite
   numbers are rounded correctly; those by zero, put together from signs, fit in with the others. -/
namespace Reckoner.Binary64
open Float.Model Float.Model.UnpackedFloat

section Finite

theorem magnitude_finite {p m : Nat} {e : Int} (count : (p : Int) = (e + 1074) * binade + m)
    (least : -1074 ≤ e) (top : m < 2 * binade) (normal : -1074 < e → binade ≤ m) :
    magnitude p = m * 2 ^ e := by
  have exponent : p = (e + 1074).toNat * binade + m := by
    rw [binade_eq] at *
    omega
  have counted : units p = m * 2 ^ (e + 1074).toNat := by
    rw [exponent]
    exact (units_neighbours (fun above => normal (by omega)) top.le).1
  have base : (2 : Rat) ≠ 0 := two_ne_zero
  rw [magnitude, counted, Nat.cast_mul, cast_two_pow (by omega), one_cast, mul_div_assoc,
    ← zpow_sub₀ base, Int.add_sub_cancel]

theorem unpack_nonzero {x : Float} (finite : x.isFinite = true) (nonzero : value x ≠ 0) :
    ∃ m e some, x.toModel.unpack = .finite (signOf (isNegative x)) m e some ∧
      |value x| = m * 2 ^ e := by
  rw [isFinite_iff] at finite
  rw [ne_eq, value_eq_zero_iff] at nonzero
  obtain ⟨m, e, some, shape, count, least, top, normal⟩ :=
    signed_finite (signOf (isNegative x)) (Nat.pos_of_ne_zero nonzero) finite
  refine ⟨m, e, some, ?_, ?_⟩
  · rw [unpack_eq finite.le, shape]
  · rw [abs_value, magnitude_finite count least top normal]

variable {m₁ m₂ : Nat} {e₁ e₂ : Int}

theorem quotient_reaches (some₁ : 0 < m₁) (some₂ : 0 < m₂) {e : Int}
    (first : e ≤ e₁ - e₂) (target : e ≤ max (m₁.log2 + e₁ - (m₂.log2 + e₂) - 53) (-1074)) :
    e ≤ max ((m₁ * 2 ^ (e₁ - e₂ - e).toNat / m₂).log2 + e - 52) (-1074) := by
  by_cases last : e ≤ -1074
  · omega
  · have bits : m₂.log2 + 1 + 52 ≤ m₁.log2 + (e₁ - e₂ - e).toNat := by omega
    have long : 2 ^ 52 ≤ m₁ * 2 ^ (e₁ - e₂ - e).toNat / m₂ := by
      rw [Nat.le_div_iff_mul_le some₂]
      calc 2 ^ 52 * m₂ ≤ 2 ^ 52 * 2 ^ (m₂.log2 + 1) := Nat.mul_le_mul_left _ Nat.lt_log2_self.le
        _ ≤ 2 ^ (m₁.log2 + (e₁ - e₂ - e).toNat) := by
          rw [← pow_add]
          exact Nat.pow_le_pow_right two_pos (by omega)
        _ ≤ m₁ * 2 ^ (e₁ - e₂ - e).toNat := by
          rw [pow_add]
          exact Nat.mul_le_mul_right _ (Nat.log2_self_le some₁.ne')
    have nonzero : m₁ * 2 ^ (e₁ - e₂ - e).toNat / m₂ ≠ 0 := by omega
    have leading := (Nat.le_log2 nonzero).mpr long
    omega

theorem quotient_shifted (m₁ m₂ : Nat) {e₁ e₂ e : Int} (first : e ≤ e₁ - e₂) :
    ((m₁ * 2 ^ (e₁ - e₂ - e).toNat : Nat) : Rat) / m₂ * 2 ^ e =
      m₁ * 2 ^ e₁ / (m₂ * 2 ^ e₂) := by
  have base : (2 : Rat) ≠ 0 := two_ne_zero
  rw [Nat.cast_mul, cast_two_pow (by omega), mul_div_mul_comm, ← zpow_sub₀ base, div_mul_eq_mul_div,
    mul_assoc, ← zpow_add₀ base, ← div_mul_eq_mul_div]
  congr 2
  omega

theorem divCore_target (m₁ m₂ : Nat) (e₁ e₂ : Int) :
    Format.binary64.targetExponent (totalExponent m₁ e₁ - totalExponent m₂ e₂) =
      max (m₁.log2 + e₁ - (m₂.log2 + e₂) - 53) (-1074) := by
  simp only [Format.targetExponent, totalExponent, Format.mantissaBits, Format.minExponent]
  norm_num
  omega

theorem pack_div (s₁ s₂ : Sign) (some₁ : 0 < m₁) (some₂ : 0 < m₂) :
    ∃ p, Float.Model.pack (UnpackedFloat.div .binary64 (.finite s₁ m₁ e₁ some₁)
        (.finite s₂ m₂ e₂ some₂)) = Float.Model.pack (signed (s₁ / s₂) (min p infinitePattern)) ∧
      RoundsTo (m₁ * 2 ^ e₁ / (m₂ * 2 ^ e₂)) p := by
  simp only [UnpackedFloat.div, divCore, divCore_target, Nat.shiftLeft_eq]
  generalize exponent : min (e₁ - e₂) (max (m₁.log2 + e₁ - (m₂.log2 + e₂) - 53) (-1074)) = e
  have first : e ≤ e₁ - e₂ := by omega
  have reached := quotient_reaches some₁ some₂ first (by omega)
  have carries := @carries_quotient (m₁ * 2 ^ (e₁ - e₂ - e).toNat) m₂ some₂
  rw [← quotient_shifted m₁ m₂ first]
  exact pack_round (s₁ / s₂) some₂ carries reached

theorem infinity_div (s t : Sign) {q : Nat} (finite : q < infinitePattern) :
    UnpackedFloat.div .binary64 (signed s infinitePattern) (signed t q) =
      signed (s / t) infinitePattern := by
  have infinite : ∀ s, signed s infinitePattern = .infinity s := fun _ => rfl
  rw [infinite, infinite, signed, if_neg finite.ne]
  split_ifs <;> rfl

theorem div_infinity (s t : Sign) {p : Nat} (finite : p < infinitePattern) :
    UnpackedFloat.div .binary64 (signed s p) (signed t infinitePattern) = signed (s / t) 0 := by
  have infinite : ∀ s, signed s infinitePattern = .infinity s := fun _ => rfl
  rw [infinite, signed, if_neg finite.ne]
  split_ifs <;> rfl

theorem zero_div_finite (s t : Sign) {q : Nat} (positive : 0 < q) (finite : q < infinitePattern) :
    UnpackedFloat.div .binary64 (signed s 0) (signed t q) = signed (s / t) 0 := by
  obtain ⟨m, e, some, shape, -⟩ := signed_finite t positive finite
  rw [shape]
  rfl

end Finite

section Quotients
variable {a b : Float}

theorem signOf_div (m n : Bool) : signOf m / signOf n = signOf (m ^^ n) := by
  cases m <;> cases n <;> rfl

theorem div_eq (a b : Float) :
    a / b = ⟨Float.Model.pack
      (UnpackedFloat.div .binary64 a.toModel.unpack b.toModel.unpack)⟩ := rfl

theorem unpack_nan (beyond : infinitePattern < pattern a) : a.toModel.unpack = .notANumber := by
  rw [eq_nan beyond]
  rfl

theorem div_of_signed {p : Nat} (numberA : pattern a ≤ infinitePattern)
    (numberB : pattern b ≤ infinitePattern)
    (quotient : ∀ s t, UnpackedFloat.div .binary64 (signed s (pattern a)) (signed t (pattern b)) =
      signed (s / t) p) : a / b = ofSigned (isNegative a ^^ isNegative b) p := by
  rw [div_eq, unpack_eq numberA, unpack_eq numberB, quotient, signOf_div]
  rfl

theorem div_undefined (undefined : infinitePattern < pattern a ∨ infinitePattern < pattern b ∨
    (pattern a = infinitePattern ∧ pattern b = infinitePattern)) : a / b = nan := by
  have packed : (⟨Float.Model.pack .notANumber⟩ : Float) = nan := rfl
  rw [div_eq, ← packed]
  congr 2
  rcases undefined with beyond | beyond | ⟨infiniteA, infiniteB⟩
  · rw [unpack_nan beyond]
    rfl
  · rw [unpack_nan beyond]
    cases a.toModel.unpack <;> rfl
  · rw [unpack_eq infiniteA.le, unpack_eq infiniteB.le, infiniteA, infiniteB]
    rfl

/-- Finite doubles but zero have the rounded quotient of their sizes, with its sign. -/
theorem div_finite (finiteA : a.isFinite = true) (finiteB : b.isFinite = true)
    (nonzeroA : value a ≠ 0) (nonzeroB : value b ≠ 0) :
    ∃ p, a / b = ofSigned (isNegative a ^^ isNegative b) (min p infinitePattern) ∧
      RoundsTo (|value a| / |value b|) p := by
  obtain ⟨m₁, e₁, some₁, shapeA, sizeA⟩ := unpack_nonzero finiteA nonzeroA
  obtain ⟨m₂, e₂, some₂, shapeB, sizeB⟩ := unpack_nonzero finiteB nonzeroB
  obtain ⟨p, packed, rounds⟩ := @pack_div m₁ m₂ e₁ e₂ (signOf (isNegative a))
    (signOf (isNegative b)) some₁ some₂
  rw [div_eq, shapeA, shapeB, packed, signOf_div, sizeA, sizeB]
  exact ⟨p, rfl, rounds⟩

end Quotients
end Reckoner.Binary64

namespace Reckoner.Arithmetic
open Binary64

variable {a b : Float}

def IsZero (x : Float) : Prop := x = 0.0 ∨ x = -0.0

theorem isZero_iff (x : Float) : IsZero x ↔ pattern x = 0 := by
  rw [IsZero, ← value_eq_zero_iff_zero, value_eq_zero_iff]

theorem beq_zero_iff_pattern (x : Float) : (x == 0.0) = true ↔ pattern x = 0 := by
  by_cases number : pattern x ≤ infinitePattern
  · rw [beq_zero_iff number, value_eq_zero_iff]
  · have unordered : (nan == 0.0) = false ∧ pattern nan ≠ 0 := by decide +kernel
    rw [eq_nan (Nat.lt_of_not_le number), unordered.1]
    simp [unordered.2]

theorem divide_of_divisor (divisor : pattern b ≠ 0) : divide a b = a / b := by
  have nonzero : (b != 0.0) = true := by
    rw [bne, Bool.not_eq_true', ← Bool.not_eq_true, beq_zero_iff_pattern]
    exact divisor
  rw [divide, dif_pos nonzero]
  rfl

theorem copied_signs (a b : Float) :
    copySign infinity a * copySign 1.0 b =
      ofSigned (isNegative a ^^ isNegative b) infinitePattern := by
  unfold copySign
  cases isNegative a <;> cases isNegative b <;> decide +kernel

theorem divide_by_zero (zero : pattern b = 0) :
    divide a b = if pattern a = 0 ∨ infinitePattern < pattern a then nan
      else ofSigned (isNegative a ^^ isNegative b) infinitePattern := by
  have none : ¬(b != 0.0) = true := by
    rw [bne, Bool.not_eq_true', Bool.not_eq_false, beq_zero_iff_pattern]
    exact zero
  have undefined : (a == 0.0 || a.isNaN) = true ↔ pattern a = 0 ∨ infinitePattern < pattern a := by
    rw [Bool.or_eq_true, beq_zero_iff_pattern, isNaN_iff]
  rw [divide, dif_neg none, copied_signs]
  simp only [undefined]

def NoQuotient (a b : Float) : Prop :=
  a.isNaN = true ∨ b.isNaN = true ∨ IsZero a ∧ IsZero b ∨ a.isInf = true ∧ b.isInf = true

/-- Division as the floating-point standard has it. -/
structure IsQuotient (a b q : Float) : Prop where
  undefined : q.isNaN = true ↔ NoQuotient a b
  sign : q.isNaN = false → isNegative q = (isNegative a ^^ isNegative b)
  infinite : q.isNaN = false → IsZero b ∨ a.isInf = true → q.isInf = true
  zero : q.isNaN = false → b.isInf = true ∨ IsZero a → IsZero q
  rounded : a.isFinite = true → b.isFinite = true → ¬IsZero a → ¬IsZero b →
    Rounding (value a / value b) q

section Cases

theorem infinitePattern_pos : 0 < infinitePattern := by decide

theorem noQuotient_iff (a b : Float) :
    NoQuotient a b ↔ infinitePattern < pattern a ∨ infinitePattern < pattern b ∨
      pattern a = 0 ∧ pattern b = 0 ∨
      pattern a = infinitePattern ∧ pattern b = infinitePattern := by
  rw [NoQuotient, isNaN_iff, isNaN_iff, isZero_iff, isZero_iff, isInf_iff, isInf_iff]

theorem divide_undefined (undefined : NoQuotient a b) : divide a b = nan := by
  have positive := infinitePattern_pos
  rw [noQuotient_iff] at undefined
  by_cases zero : pattern b = 0
  · rw [divide_by_zero zero, if_pos (by omega)]
  · rw [divide_of_divisor zero]
    exact div_undefined (by omega)

theorem divide_infinite (defined : ¬NoQuotient a b) (infinite : IsZero b ∨ a.isInf = true) :
    divide a b = ofSigned (isNegative a ^^ isNegative b) infinitePattern := by
  have positive := infinitePattern_pos
  rw [noQuotient_iff] at defined
  rw [isZero_iff, isInf_iff] at infinite
  by_cases zero : pattern b = 0
  · rw [divide_by_zero zero, if_neg (by omega)]
  · have top := infinite.resolve_left zero
    rw [divide_of_divisor zero]
    refine div_of_signed top.le (by omega) fun s t => ?_
    rw [top]
    exact infinity_div s t (by omega)

theorem divide_zero (defined : ¬NoQuotient a b) (zero : b.isInf = true ∨ IsZero a) :
    divide a b = ofSigned (isNegative a ^^ isNegative b) 0 := by
  have positive := infinitePattern_pos
  rw [noQuotient_iff] at defined
  rw [isZero_iff, isInf_iff] at zero
  rw [divide_of_divisor (by omega)]
  by_cases infinite : pattern b = infinitePattern
  · refine div_of_signed (by omega) infinite.le fun s t => ?_
    rw [infinite]
    exact div_infinity s t (by omega)
  · have null := zero.resolve_left infinite
    refine div_of_signed (by omega) (by omega) fun s t => ?_
    rw [null]
    exact zero_div_finite s t (by omega) (by omega)

theorem value_neg_iff_sign {x : Float} (nonzero : value x ≠ 0) :
    (value x < 0 ↔ isNegative x = true) ∧ (0 < value x ↔ isNegative x = false) := by
  have negative : value x < 0 ↔ isNegative x = true := by
    rw [value_neg_iff, and_iff_left ((value_eq_zero_iff x).not.mp nonzero)]
  refine ⟨negative, ?_⟩
  rw [← Bool.not_eq_true, ← negative, not_lt]
  exact ⟨le_of_lt, fun least => least.lt_of_ne nonzero.symm⟩

theorem div_neg_iff_sign (nonzeroA : value a ≠ 0) (nonzeroB : value b ≠ 0) :
    decide (value a / value b < 0) = (isNegative a ^^ isNegative b) := by
  obtain ⟨negativeA, positiveA⟩ := value_neg_iff_sign nonzeroA
  obtain ⟨negativeB, positiveB⟩ := value_neg_iff_sign nonzeroB
  rw [Bool.eq_iff_iff, decide_eq_true_eq, div_neg_iff, negativeA, negativeB, positiveA, positiveB]
  cases isNegative a <;> cases isNegative b <;> decide

theorem divide_finite (finiteA : a.isFinite = true) (finiteB : b.isFinite = true)
    (nonzeroA : ¬IsZero a) (nonzeroB : ¬IsZero b) :
    ∃ p ≤ infinitePattern, divide a b = ofSigned (isNegative a ^^ isNegative b) p ∧
      Rounding (value a / value b) (divide a b) := by
  rw [IsZero, ← value_eq_zero_iff_zero] at nonzeroA nonzeroB
  obtain ⟨p, quotient, rounds⟩ := div_finite finiteA finiteB nonzeroA nonzeroB
  rw [← abs_div] at rounds
  have rounding := rounds.rounding
  rw [div_neg_iff_sign nonzeroA nonzeroB, ← quotient] at rounding
  rw [divide_of_divisor ((value_eq_zero_iff b).not.mp nonzeroB)]
  exact ⟨_, Nat.min_le_right _ _, quotient, rounding⟩

theorem isQuotient_of_signed {q : Float} {p : Nat} (defined : ¬NoQuotient a b)
    (bound : p ≤ infinitePattern) (same : q = ofSigned (isNegative a ^^ isNegative b) p)
    (infinite : IsZero b ∨ a.isInf = true → p = infinitePattern)
    (zero : b.isInf = true ∨ IsZero a → p = 0)
    (rounded : a.isFinite = true → b.isFinite = true → ¬IsZero a → ¬IsZero b →
      Rounding (value a / value b) q) : IsQuotient a b q := by
  obtain ⟨sign, size⟩ := ofSigned_fields (isNegative a ^^ isNegative b) bound
  rw [← same] at sign size
  constructor
  · rw [isNaN_iff, size]
    exact iff_of_false (Nat.not_lt.mpr bound) defined
  · exact fun _ => sign
  · intro _ given
    rw [isInf_iff, size]
    exact infinite given
  · intro _ given
    rw [isZero_iff, size]
    exact zero given
  · exact rounded

theorem isQuotient_nan (undefined : NoQuotient a b) : IsQuotient a b nan := by
  have isNan : nan.isNaN = true := by decide
  have never : nan.isNaN ≠ false := by rw [isNan]; decide
  constructor
  · exact iff_of_true isNan undefined
  · exact fun number => absurd number never
  · exact fun number => absurd number never
  · exact fun number => absurd number never
  · intro finiteA finiteB nonzeroA _
    rw [noQuotient_iff] at undefined
    rw [isFinite_iff] at finiteA finiteB
    rw [isZero_iff] at nonzeroA
    omega

end Cases

/-- Division is that of the standard for all doubles: with zeros of both signs, infinities, numbers
too small for all 53 bits, and NaN. The quotient that it takes is never one by zero. -/
theorem divide_isQuotient (a b : Float) : IsQuotient a b (divide a b) := by
  by_cases undefined : NoQuotient a b
  · rw [divide_undefined undefined]
    exact isQuotient_nan undefined
  have classes := undefined
  rw [noQuotient_iff] at classes
  have positive := infinitePattern_pos
  by_cases infinite : IsZero b ∨ a.isInf = true
  · refine isQuotient_of_signed undefined le_rfl (divide_infinite undefined infinite)
      (fun _ => rfl) ?_ ?_
    · rw [isZero_iff, isInf_iff] at *
      omega
    · intro finiteA _ _ nonzeroB
      rw [isFinite_iff] at finiteA
      rw [isInf_iff] at infinite
      exact absurd (infinite.resolve_left nonzeroB) finiteA.ne
  by_cases zero : b.isInf = true ∨ IsZero a
  · refine isQuotient_of_signed undefined (Nat.zero_le _) (divide_zero undefined zero)
      (absurd · infinite) (fun _ => rfl) ?_
    intro _ finiteB nonzeroA _
    rw [isFinite_iff] at finiteB
    rw [isInf_iff] at zero
    exact absurd (zero.resolve_right nonzeroA) finiteB.ne
  have finite : a.isFinite = true ∧ b.isFinite = true := by
    rw [isZero_iff, isInf_iff] at infinite zero
    rw [isFinite_iff, isFinite_iff]
    omega
  rw [not_or] at infinite zero
  obtain ⟨p, bound, same, rounding⟩ := divide_finite finite.1 finite.2 zero.2 infinite.1
  exact isQuotient_of_signed undefined bound same (fun given => absurd given (not_or.mpr infinite))
    (fun given => absurd given (not_or.mpr zero)) fun _ _ _ _ => rounding

end Reckoner.Arithmetic

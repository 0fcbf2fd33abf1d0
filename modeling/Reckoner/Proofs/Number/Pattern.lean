import Mathlib
import Reckoner.Number.Binary64

/- Every double that is not NaN is its sign and its pattern: the two determine it, they determine
   what the bits stand for, and above zero the order of doubles is the order of patterns. -/
namespace Reckoner.Binary64
open Float.Model Float.Model.UnpackedFloat

theorem binade_eq : binade = 4503599627370496 := rfl

theorem signBit_eq : signBit = 9223372036854775808 := rfl

theorem infinitePattern_eq : infinitePattern = 9218868437227405312 := rfl

theorem binade_pos : 0 < binade := by decide

def signed (s : Sign) (p : Nat) : UnpackedFloat :=
  if p = infinitePattern then .infinity s
  else if h : p = 0 then .zero s
  else if p < binade then .finite s p (-1074) (Nat.pos_of_ne_zero h)
  else .finite s (binade + p % binade) (p / binade - 1075) (Nat.add_pos_left binade_pos _)

def signOf (negative : Bool) : Sign := if negative then .negative else .positive

theorem neg_signed (s : Sign) (p : Nat) : (signed s p).neg = signed (-s) p := by
  unfold signed
  split_ifs <;> rfl

theorem abs_signed (s : Sign) (p : Nat) : (signed s p).abs = signed .positive p := by
  unfold signed
  split_ifs <;> rfl

section Order

theorem signed_finite (s : Sign) {p : Nat} (positive : 0 < p) (finite : p < infinitePattern) :
    ∃ m e h, signed s p = .finite s m e h ∧ (p : Int) = (e + 1074) * binade + m ∧
      -1074 ≤ e ∧ m < 2 * binade ∧ (-1074 < e → binade ≤ m) := by
  rw [signed, if_neg (by omega), dif_neg (by omega)]
  by_cases small : p < binade
  · rw [if_pos small]
    exact ⟨p, -1074, _, rfl, by omega, by omega, by omega, by omega⟩
  · rw [if_neg small]
    exact ⟨_, _, _, rfl, by rw [binade_eq]; omega, by rw [binade_eq] at *; omega,
      by rw [binade_eq]; omega, by omega⟩

theorem compare_finite {p q : Nat} (positiveP : 0 < p) (finiteP : p < infinitePattern)
    (positiveQ : 0 < q) (finiteQ : q < infinitePattern) :
    (signed .positive p).compare (signed .positive q) = some (compare p q) := by
  obtain ⟨m, e, h, shape, value, bottom, top, leading⟩ := signed_finite .positive positiveP finiteP
  obtain ⟨m', e', h', shape', value', bottom', top', leading'⟩ :=
    signed_finite .positive positiveQ finiteQ
  rw [shape, shape', UnpackedFloat.compare]
  rw [binade_eq] at *
  -- a greater exponent has the leading one, so it is a greater pattern whatever the mantissa
  rcases lt_trichotomy e e' with order | order | order
  · rw [compare_lt_iff_lt.mpr order, compare_lt_iff_lt.mpr (by omega : p < q)]
    rfl
  · subst order
    rw [compare_eq_iff_eq.mpr rfl, Ordering.then]
    simp only [compare, compareOfLessAndEq, show m < m' ↔ p < q by omega,
      show m = m' ↔ p = q by omega]
  · rw [compare_gt_iff_gt.mpr order, compare_gt_iff_gt.mpr (by omega : q < p)]
    rfl

theorem compare_signed {p q : Nat} (hp : p ≤ infinitePattern) (hq : q ≤ infinitePattern) :
    (signed .positive p).compare (signed .positive q) = some (compare p q) := by
  rcases hp.eq_or_lt with rfl | finiteP <;> rcases hq.eq_or_lt with rfl | finiteQ
  · rfl
  · rw [compare_gt_iff_gt.mpr finiteQ]
    obtain rfl | positiveQ := q.eq_zero_or_pos
    · rfl
    · obtain ⟨m, e, h, shape, -⟩ := signed_finite .positive positiveQ finiteQ
      rw [shape]
      rfl
  · rw [compare_lt_iff_lt.mpr finiteP]
    obtain rfl | positiveP := p.eq_zero_or_pos
    · rfl
    · obtain ⟨m, e, h, shape, -⟩ := signed_finite .positive positiveP finiteP
      rw [shape]
      rfl
  · obtain rfl | positiveP := p.eq_zero_or_pos <;> obtain rfl | positiveQ := q.eq_zero_or_pos
    · rfl
    · obtain ⟨m, e, h, shape, -⟩ := signed_finite .positive positiveQ finiteQ
      rw [shape, compare_lt_iff_lt.mpr positiveQ]
      rfl
    · obtain ⟨m, e, h, shape, -⟩ := signed_finite .positive positiveP finiteP
      rw [shape, compare_gt_iff_gt.mpr positiveP]
      rfl
    · exact compare_finite positiveP finiteP positiveQ finiteQ

theorem signed_inj {s t : Sign} {p q : Nat} (hp : p ≤ infinitePattern) (hq : q ≤ infinitePattern)
    (same : signed s p = signed t q) : s = t ∧ p = q := by
  rcases hp.eq_or_lt with rfl | finiteP <;> rcases hq.eq_or_lt with rfl | finiteQ
  · cases same
    exact ⟨rfl, rfl⟩
  · obtain rfl | positiveQ := q.eq_zero_or_pos
    · cases same
    · obtain ⟨m, e, h, shape, -⟩ := signed_finite t positiveQ finiteQ
      rw [shape] at same
      cases same
  · obtain rfl | positiveP := p.eq_zero_or_pos
    · cases same
    · obtain ⟨m, e, h, shape, -⟩ := signed_finite s positiveP finiteP
      rw [shape] at same
      cases same
  · obtain rfl | positiveP := p.eq_zero_or_pos <;> obtain rfl | positiveQ := q.eq_zero_or_pos
    · cases same
      exact ⟨rfl, rfl⟩
    · obtain ⟨m, e, h, shape, -⟩ := signed_finite t positiveQ finiteQ
      rw [shape] at same
      cases same
    · obtain ⟨m, e, h, shape, -⟩ := signed_finite s positiveP finiteP
      rw [shape] at same
      cases same
    · obtain ⟨m, e, h, shape, value, -⟩ := signed_finite s positiveP finiteP
      obtain ⟨m', e', h', shape', value', -⟩ := signed_finite t positiveQ finiteQ
      rw [shape, shape'] at same
      cases same
      exact ⟨rfl, by omega⟩

end Order

section Bits
variable (b : BitVec 64)

theorem mantissa_toNat :
    (@unpackMantissa .binary64 b).toNat = b.toNat % 4503599627370496 := by
  simp [unpackMantissa_def, BitVec.extractLsb'_toNat]

theorem exponent_toNat :
    (@unpackExponent .binary64 b).toNat = b.toNat / 4503599627370496 % 2048 := by
  simp [unpackExponent_def, BitVec.extractLsb'_toNat, Nat.shiftRight_eq_div_pow]

theorem sign_toNat :
    (@unpackSign .binary64 b).toNat = b.toNat / 9223372036854775808 % 2 := by
  simp [unpackSign_def, BitVec.extractLsb'_toNat, Nat.shiftRight_eq_div_pow]

theorem sign_of_bits :
    Sign.ofBitVec (@unpackSign .binary64 b) = signOf (signBit ≤ b.toNat) := by
  have value := sign_toNat b
  have small := b.isLt
  rw [Sign.ofBitVec, signOf, signBit_eq]
  by_cases negative : 9223372036854775808 ≤ b.toNat
  · have : @unpackSign .binary64 b = 1#1 := BitVec.eq_of_toNat_eq (by simp; omega)
    simp [this, negative]
  · have : @unpackSign .binary64 b = 0#1 := BitVec.eq_of_toNat_eq (by simp; omega)
    simp [this, negative]

theorem leading_one_toNat (m : BitVec 52) : (1#1 ++ m).toNat = binade + m.toNat := by
  rw [BitVec.toNat_append, ← Nat.shiftLeft_add_eq_or_of_lt m.isLt, binade_eq]
  simp [Nat.shiftLeft_eq]

theorem unpack_bits (p : Nat) (split : b.toNat % signBit = p) (bound : p ≤ infinitePattern) :
    UnpackedFloat.unpack .binary64 b = signed (signOf (signBit ≤ b.toNat)) p := by
  have m : (@unpackMantissa .binary64 b).toNat = p % binade := by
    rw [mantissa_toNat, binade_eq, ← split, signBit_eq]; omega
  have e : (@unpackExponent .binary64 b).toNat = p / binade := by
    have small := b.isLt
    rw [exponent_toNat, binade_eq, ← split, signBit_eq]; omega
  have zeroMantissa : @unpackMantissa .binary64 b = 0#52 ↔ p % binade = 0 := by
    rw [BitVec.toNat_eq, m]; rfl
  have zeroExponent : @unpackExponent .binary64 b = 0#11 ↔ p / binade = 0 := by
    rw [BitVec.toNat_eq, e]; rfl
  have fullExponent : @unpackExponent .binary64 b = -1#11 ↔ p / binade = 2047 := by
    rw [BitVec.toNat_eq, e]; rfl
  rw [UnpackedFloat.unpack, signed]
  simp only [sign_of_bits, m, e, zeroMantissa, zeroExponent, fullExponent, leading_one_toNat]
  by_cases infinite : p = infinitePattern
  · have full : p / binade = 2047 ∧ p % binade = 0 := by rw [infinite]; decide
    rw [if_pos full.1, if_pos full.2, if_pos infinite]
  have notFull : p / binade ≠ 2047 := by rw [binade_eq, infinitePattern_eq] at *; omega
  rw [if_neg notFull, if_neg infinite]
  by_cases small : p < binade
  · have fields : p / binade = 0 ∧ p % binade = p :=
      ⟨Nat.div_eq_of_lt small, Nat.mod_eq_of_lt small⟩
    simp only [fields, small, ↓reduceIte]
    rfl
  · have normal : p / binade ≠ 0 := by rw [binade_eq] at *; omega
    have positive : p ≠ 0 := by rintro rfl; exact small binade_pos
    rw [if_neg normal, dif_neg positive, if_neg small]
    rfl

theorem valid_of_pattern (bound : b.toNat % signBit ≤ infinitePattern) :
    Format.binary64.Valid b := by
  constructor
  intro full nonzero
  have exponent := exponent_toNat b
  have mantissa := mantissa_toNat b
  have ones : (-1#11).toNat = 2047 := rfl
  have zero : (0#52).toNat = 0 := rfl
  rw [full, ones] at exponent
  rw [signBit_eq, infinitePattern_eq] at bound
  exact absurd (BitVec.eq_of_toNat_eq (by rw [mantissa, zero]; omega)) nonzero

theorem packed_of_beyond (valid : Format.binary64.Valid b)
    (beyond : infinitePattern < b.toNat % signBit) : b = packedNaN .binary64 := by
  have exponent := exponent_toNat b
  have mantissa := mantissa_toNat b
  have small := b.isLt
  rw [signBit_eq, infinitePattern_eq] at beyond
  apply valid.eq_packedNaN
  · exact BitVec.eq_of_toNat_eq (exponent.trans (by omega : _ = 2047))
  · intro empty
    have zero : (0#52).toNat = 0 := rfl
    rw [empty, zero] at mantissa
    omega

end Bits

theorem unpack_pack_signed (s : Sign) {p : Nat} (bound : p ≤ infinitePattern) :
    (Float.Model.pack (signed s p)).unpack = signed s p := by
  have ⟨b, split, sign⟩ : ∃ b : BitVec 64,
      b.toNat % signBit = p ∧ signOf (signBit ≤ b.toNat) = s := by
    rw [infinitePattern_eq] at bound
    rw [signBit_eq]
    cases s with
    | positive =>
      refine ⟨BitVec.ofNat 64 p, ?_⟩
      rw [BitVec.toNat_ofNat, Nat.mod_eq_of_lt (by omega : p < 2 ^ 64)]
      exact ⟨by omega, by rw [decide_eq_false (by omega)]; rfl⟩
    | negative =>
      refine ⟨BitVec.ofNat 64 (9223372036854775808 + p), ?_⟩
      rw [BitVec.toNat_ofNat, Nat.mod_eq_of_lt (by omega : 9223372036854775808 + p < 2 ^ 64)]
      exact ⟨by omega, by rw [decide_eq_true (by omega)]; rfl⟩
  have valid := valid_of_pattern b (by omega)
  rw [← sign, ← unpack_bits b p split bound]
  exact congrArg (UnpackedFloat.unpack .binary64) (pack_unpack_of_valid valid)

theorem eq_of_unpack {x y : Float} (same : x.toModel.unpack = y.toModel.unpack) : x = y := by
  obtain ⟨⟨⟨x⟩, validX⟩⟩ := x
  obtain ⟨⟨⟨y⟩, validY⟩⟩ := y
  have bits : x = y := (unpack_inj_of_valid validX validY).mp same
  subst bits
  rfl

theorem unpack_eq {x : Float} (number : pattern x ≤ infinitePattern) :
    x.toModel.unpack = signed (signOf (isNegative x)) (pattern x) :=
  unpack_bits x.toBits.toBitVec (pattern x) rfl number

section Patterns
variable {p q : Nat} (hp : p ≤ infinitePattern) (hq : q ≤ infinitePattern)
include hp

theorem unpack_ofPattern : (ofPattern p).toModel.unpack = signed .positive p := by
  have split : (BitVec.ofNat 64 p).toNat = p :=
    Nat.mod_eq_of_lt (by rw [infinitePattern_eq] at hp; omega)
  have positive : ¬signBit ≤ p := by rw [infinitePattern_eq, signBit_eq] at *; omega
  have bits := unpack_bits (BitVec.ofNat 64 p) p
    (by rw [split]; exact Nat.mod_eq_of_lt (by omega)) hp
  rw [split, decide_eq_false positive] at bits
  have whole : (ofPattern p).toModel = Float.Model.pack (signed .positive p) :=
    congrArg Float.Model.pack bits
  rw [whole, unpack_pack_signed .positive hp]

theorem toBits_ofPattern : (ofPattern p).toBits.toNat = p := by
  have split : (BitVec.ofNat 64 p).toNat = p :=
    Nat.mod_eq_of_lt (by rw [infinitePattern_eq] at hp; omega)
  have valid := valid_of_pattern (BitVec.ofNat 64 p)
    (by rw [split]; exact (Nat.mod_le _ _).trans hp)
  have bits : (ofPattern p).toBits.toBitVec = BitVec.ofNat 64 p := pack_unpack_of_valid valid
  rw [← UInt64.toNat_toBitVec, bits, split]

theorem pattern_ofPattern : pattern (ofPattern p) = p := by
  rw [pattern, toBits_ofPattern hp]
  exact Nat.mod_eq_of_lt (by rw [infinitePattern_eq, signBit_eq] at *; omega)

include hq

theorem ofPattern_le : ofPattern p ≤ ofPattern q ↔ p ≤ q := by
  have order : ofPattern p ≤ ofPattern q ↔
      decide ((ofPattern p).toModel.unpack.le (ofPattern q).toModel.unpack = true) = true := Iff.rfl
  rw [order, unpack_ofPattern hp, unpack_ofPattern hq, UnpackedFloat.le, compare_signed hp hq]
  simp [Nat.isLE_compare]

theorem ofPattern_lt : ofPattern p < ofPattern q ↔ p < q := by
  have order : ofPattern p < ofPattern q ↔
      decide ((ofPattern p).toModel.unpack.lt (ofPattern q).toModel.unpack = true) = true := Iff.rfl
  rw [order, unpack_ofPattern hp, unpack_ofPattern hq, UnpackedFloat.lt, compare_signed hp hq]
  simp [compare_lt_iff_lt]

end Patterns

section Doubles
variable {x : Float} (number : pattern x ≤ infinitePattern)
include number

theorem ofPattern_pattern (positive : isNegative x = false) : ofPattern (pattern x) = x := by
  apply eq_of_unpack
  rw [unpack_eq number, positive, unpack_ofPattern number]
  rfl

theorem neg_ofPattern_pattern (negative : isNegative x = true) : -ofPattern (pattern x) = x := by
  have flipped : (-ofPattern (pattern x)).toModel.unpack =
      (Float.Model.pack (ofPattern (pattern x)).toModel.unpack.neg).unpack := rfl
  apply eq_of_unpack
  rw [flipped, unpack_ofPattern number, neg_signed, unpack_pack_signed _ number, unpack_eq number,
    negative]
  rfl

theorem abs_eq : x.abs = ofPattern (pattern x) := by
  have magnitude : x.abs.toModel.unpack = (Float.Model.pack x.toModel.unpack.abs).unpack := rfl
  apply eq_of_unpack
  rw [magnitude, unpack_eq number, abs_signed, unpack_pack_signed _ number, unpack_ofPattern number]

end Doubles

theorem eq_nan {x : Float} (beyond : infinitePattern < pattern x) : x = nan := by
  have bits : x.toBits.toBitVec = packedNaN .binary64 :=
    packed_of_beyond _ x.toModel.valid beyond
  rw [← Float.ofBits_toBits x]
  exact congrArg (fun b => Float.ofBits ⟨b⟩) bits

theorem compare_nan (u : UnpackedFloat) : u.compare .notANumber = none := by
  cases u <;> rfl

def ofSigned (negative : Bool) (p : Nat) : Float :=
  ⟨Float.Model.pack (signed (signOf negative) p)⟩

theorem signOf_injective : Function.Injective signOf := by
  intro m n same
  cases m <;> cases n <;> simp_all [signOf]

theorem ofSigned_fields (negative : Bool) {p : Nat} (bound : p ≤ infinitePattern) :
    isNegative (ofSigned negative p) = negative ∧ pattern (ofSigned negative p) = p := by
  have unpacked : (ofSigned negative p).toModel.unpack = signed (signOf negative) p :=
    unpack_pack_signed (signOf negative) bound
  by_cases number : pattern (ofSigned negative p) ≤ infinitePattern
  · rw [unpack_eq number] at unpacked
    exact (signed_inj number bound unpacked).imp_left fun same => signOf_injective same
  · have unordered : nan.toModel.unpack = .notANumber := rfl
    rw [eq_nan (Nat.lt_of_not_le number), unordered, signed] at unpacked
    split_ifs at unpacked

theorem neg_fields {x : Float} (number : pattern x ≤ infinitePattern) :
    isNegative (-x) = !isNegative x ∧ pattern (-x) = pattern x := by
  have flipped : (-x).toModel = Float.Model.pack x.toModel.unpack.neg := rfl
  have opposite : -signOf (isNegative x) = signOf (!isNegative x) := by
    cases isNegative x <;> rfl
  have same : -x = ofSigned (!isNegative x) (pattern x) := by
    rw [ofSigned, ← opposite, ← neg_signed, ← unpack_eq number, ← flipped]
  rw [same]
  exact ofSigned_fields _ number

theorem number_of_le_abs {x y : Float} (below : y ≤ x.abs) : pattern x ≤ infinitePattern := by
  by_contra beyond
  have order : decide (y.toModel.unpack.le nan.abs.toModel.unpack = true) = true := by
    rw [← eq_nan (Nat.lt_of_not_le beyond)]
    exact below
  have unordered : nan.abs.toModel.unpack = .notANumber := rfl
  rw [unordered, UnpackedFloat.le, compare_nan] at order
  simp at order

end Reckoner.Binary64

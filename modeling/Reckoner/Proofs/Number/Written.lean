import Mathlib
import Reckoner.Number.Text
import Reckoner.Proofs.Lexeme
import Reckoner.Proofs.Number.Shortest

/- A decimal written out with a point, and nothing but digits around it, reads as the same number.
   -/
namespace Reckoner.Decimal
open Binary64 Number

section Digits

theorem digitsValue_eq (cs : List Char) : digitsValue cs = Nat.ofDigitChars 10 cs 0 := by
  unfold digitsValue
  rw [Nat.ofDigitChars_eq_foldl]

theorem digitsValue_toDigits (n : Nat) : digitsValue (Nat.toDigits 10 n) = n := by
  rw [digitsValue_eq, Nat.ofDigitChars_ten_toDigits]

theorem digitsValue_append (cs ds : List Char) :
    digitsValue (cs ++ ds) = digitsValue cs * 10 ^ ds.length + digitsValue ds := by
  simp only [digitsValue_eq, Nat.ofDigitChars_append]
  rw [Nat.ofDigitChars_eq_ofDigitChars_zero, Nat.mul_comm]

theorem digitsValue_zeros (count : Nat) : digitsValue (zeros count) = 0 := by
  rw [digitsValue_eq, zeros, Nat.ofDigitChars_replicate_zero, Nat.mul_zero]

theorem digitsValue_padded (front back : Nat) (cs : List Char) :
    digitsValue (zeros front ++ cs ++ zeros back) = digitsValue cs * 10 ^ back := by
  rw [digitsValue_append, digitsValue_append, digitsValue_zeros, digitsValue_zeros, Nat.zero_mul,
    Nat.zero_add, Nat.add_zero, zeros, List.length_replicate]

theorem zeros_digits {c : Char} {count : Nat} (member : c ∈ zeros count) : c.isDigit := by
  rw [List.eq_of_mem_replicate member]
  decide

def trimmed (cs : List Char) : List Char := (cs.reverse.dropWhile (· = '0')).reverse

theorem exists_trimmed_zeros (cs : List Char) : ∃ count, cs = trimmed cs ++ zeros count := by
  have split := congrArg List.reverse (@List.takeWhile_append_dropWhile _ (· = '0') cs.reverse)
  rw [List.reverse_append, List.reverse_reverse] at split
  have same : cs.reverse.takeWhile (· = '0') = zeros (cs.reverse.takeWhile (· = '0')).length := by
    apply List.eq_replicate_of_mem
    intro c member
    simpa using List.mem_takeWhile_imp member
  refine ⟨(cs.reverse.takeWhile (· = '0')).length, ?_⟩
  rw [same, zeros, List.reverse_replicate] at split
  exact split.symm

theorem toDigits_bounds {n : Nat} (positive : 0 < n) :
    10 ^ ((Nat.toDigits 10 n).length - 1) ≤ n ∧ n < 10 ^ (Nat.toDigits 10 n).length := by
  have some : 0 < (Nat.toDigits 10 n).length := Nat.length_toDigits_pos
  constructor
  · by_contra more
    by_cases single : (Nat.toDigits 10 n).length = 1
    · simp [single] at more
      omega
    · have fits := (Nat.length_toDigits_le_iff (by decide) (by omega)).mpr (Nat.lt_of_not_le more)
      omega
  · exact (Nat.length_toDigits_le_iff (by decide) some).mp le_rfl

end Digits

section Point

def Writes (cs : List Char) (r : Rat) : Prop :=
  ∃ whole fraction, cs = whole ++ '.' :: fraction ∧ whole ≠ [] ∧ fraction ≠ [] ∧
    (∀ c ∈ whole ++ fraction, c.isDigit) ∧
    digitsValue (whole ++ fraction) * (10 : Rat) ^ (-fraction.length : Int) = r

theorem Writes.shape {cs : List Char} {r : Rat} (writes : Writes cs r) : Shape .number cs := by
  obtain ⟨whole, fraction, rfl, someWhole, some, digits, -⟩ := writes
  exact .fraction someWhole some (fun c member => digits c (List.mem_append_left _ member))
    (fun c member => digits c (List.mem_append_right _ member))

theorem Writes.value_ofChars {cs : List Char} {r : Rat} (writes : Writes cs r) :
    (ofChars cs).value = r := by
  obtain ⟨whole, fraction, rfl, -, -, digits, value⟩ := writes
  have before : ∀ c ∈ whole, c ≠ '.' := by
    rintro c member rfl
    exact absurd (digits '.' (List.mem_append_left _ member)) (by decide)
  have front : (whole ++ '.' :: fraction).takeWhile (· ≠ '.') = whole := by
    rw [List.takeWhile_append_of_pos (by simpa using before)]
    simp
  have back : (whole ++ '.' :: fraction).dropWhile (· ≠ '.') = '.' :: fraction := by
    rw [List.dropWhile_append_of_pos (by simpa using before)]
    simp
  simp only [Decimal.value, ofChars, front, back]
  exact value

theorem value_of_padded {whole fraction cs : List Char} {front back : Nat} {point : Int}
    (padded : whole ++ fraction = zeros front ++ cs ++ zeros back)
    (places : (back : Int) - fraction.length = point - cs.length) :
    digitsValue (whole ++ fraction) * (10 : Rat) ^ (-fraction.length : Int) =
      digitsValue cs * (10 : Rat) ^ (point - cs.length) := by
  rw [padded, digitsValue_padded, ← places, sub_eq_add_neg, zpow_add₀ (by norm_num), zpow_natCast]
  push_cast
  ring

theorem positional_writes {cs : List Char} (some : cs ≠ []) (digits : ∀ c ∈ cs, c.isDigit)
    (point : Int) :
    Writes (positional cs point) (digitsValue cs * (10 : Rat) ^ (point - cs.length)) := by
  have positive := List.length_pos_of_ne_nil some
  unfold positional
  split
  · rename_i low
    refine ⟨['0'], zeros (-point).toNat ++ cs, rfl, by simp, by simp [some], ?_, ?_⟩
    · intro c member
      simp only [List.mem_append, List.mem_singleton] at member
      rcases member with rfl | zero | member
      · decide
      · exact zeros_digits zero
      · exact digits c member
    · apply @value_of_padded _ _ _ ((-point).toNat + 1) 0
      · simp [zeros, List.replicate_succ]
      · simp only [zeros, List.length_append, List.length_replicate]
        omega
  · split
    · rename_i short
      refine ⟨cs ++ zeros (point.toNat - cs.length), ['0'], rfl, by simp [some], by simp, ?_, ?_⟩
      · intro c member
        simp only [List.mem_append, List.mem_singleton] at member
        rcases member with (member | zero) | rfl
        · exact digits c member
        · exact zeros_digits zero
        · decide
      · apply @value_of_padded _ _ _ 0 (point.toNat - cs.length + 1)
        · simp [zeros, List.replicate_succ']
        · simp only [List.length_singleton]
          omega
    · refine ⟨cs.take point.toNat, cs.drop point.toNat, rfl, ?_, ?_, ?_, ?_⟩
      · simp only [ne_eq, List.take_eq_nil_iff, some, or_false]
        omega
      · simp only [ne_eq, List.drop_eq_nil_iff]
        omega
      · rw [List.take_append_drop]
        exact digits
      · apply @value_of_padded _ _ _ 0 0
        · simp [zeros]
        · simp only [List.length_drop]
          omega

end Point

section Layout

theorem point_bounds {d : Decimal} (low : (10 : Rat) ^ (-4 : Int) ≤ d.value)
    (high : d.value < (10 : Rat) ^ (16 : Int)) :
    isPositional ((Nat.toDigits 10 d.digits).length + d.exponent - 1) = true := by
  have positive : 0 < d.digits := by
    by_contra zero
    rw [value, Nat.eq_zero_of_not_pos zero] at low
    norm_num at low
  obtain ⟨bottom, top⟩ := toDigits_bounds positive
  have some : 0 < (Nat.toDigits 10 d.digits).length := Nat.length_toDigits_pos
  generalize (Nat.toDigits 10 d.digits).length = length at *
  have power : (0 : Rat) < 10 ^ d.exponent := by positivity
  have below : (10 : Rat) ^ (length + d.exponent - 1) ≤ d.value := by
    rw [show (length : Int) + d.exponent - 1 = ((length - 1 : Nat) : Int) + d.exponent by omega,
      zpow_add₀ (by norm_num), zpow_natCast, value]
    exact mul_le_mul_of_nonneg_right (by exact_mod_cast bottom) power.le
  have above : d.value < (10 : Rat) ^ (length + d.exponent) := by
    rw [zpow_add₀ (by norm_num), zpow_natCast, value]
    exact mul_lt_mul_of_pos_right (by exact_mod_cast top) power
  have least := (zpow_lt_zpow_iff_right₀ (by norm_num)).mp (low.trans_lt above)
  have most := (zpow_lt_zpow_iff_right₀ (by norm_num)).mp (below.trans_lt high)
  simp only [isPositional, Bool.and_eq_true, decide_eq_true_eq]
  omega

/-- The digits that are written of a decimal, with the point where it stands among all of them, make
up its value. -/
theorem significant_spec {d : Decimal} (positive : 0 < d.digits) :
    trimmed (Nat.toDigits 10 d.digits) ≠ [] ∧
      (∀ c ∈ trimmed (Nat.toDigits 10 d.digits), c.isDigit) ∧
      digitsValue (trimmed (Nat.toDigits 10 d.digits)) *
          (10 : Rat) ^ ((Nat.toDigits 10 d.digits).length + d.exponent -
            (trimmed (Nat.toDigits 10 d.digits)).length : Int) = d.value := by
  obtain ⟨count, split⟩ := exists_trimmed_zeros (Nat.toDigits 10 d.digits)
  have number := digitsValue_toDigits d.digits
  have all : ∀ c ∈ Nat.toDigits 10 d.digits, c.isDigit := fun c member =>
    Nat.isDigit_of_mem_toDigits (by decide) (by decide) member
  generalize Nat.toDigits 10 d.digits = digits at *
  generalize trimmed digits = significant at *
  subst split
  have scaled := digitsValue_padded 0 count significant
  rw [zeros, List.replicate_zero, List.nil_append, number] at scaled
  refine ⟨?_, fun c member => all c (List.mem_append_left _ member), ?_⟩
  · rintro rfl
    rw [scaled] at positive
    simp [digitsValue] at positive
  · rw [value, scaled, List.length_append, zeros, List.length_replicate,
      show ((significant.length + count : Nat) : Int) + d.exponent - significant.length =
        count + d.exponent by omega, zpow_add₀ (by norm_num), zpow_natCast]
    push_cast
    ring

theorem decimalText_writes {d : Decimal} (low : (10 : Rat) ^ (-4 : Int) ≤ d.value)
    (high : d.value < (10 : Rat) ^ (16 : Int)) : Writes (decimalText d) d.value := by
  have layout : decimalText d = positional (trimmed (Nat.toDigits 10 d.digits))
      ((Nat.toDigits 10 d.digits).length + d.exponent) := by
    simp only [decimalText, point_bounds low high, trimmed, ↓reduceIte]
  have positive : 0 < d.digits := by
    by_contra zero
    rw [value, Nat.eq_zero_of_not_pos zero] at low
    norm_num at low
  obtain ⟨some, digits, significant⟩ := significant_spec positive
  rw [layout, ← significant]
  exact positional_writes some digits _

end Layout

section Patterns

def firstPlain : Nat := 0x3F1A36E2EB1C432D

def firstLarge : Nat := 0x4341C37937E08000

theorem plain_ends : one ≤ units firstPlain * 10 ^ 4 ∧ shortest firstPlain = ⟨1, -4⟩ ∧
    units firstLarge = 10 ^ 16 * one := by
  decide +kernel

theorem firstPlain_magnitude : (10 : Rat) ^ (-4 : Int) ≤ magnitude firstPlain := by
  have least := plain_ends.1
  rw [magnitude, le_div_iff₀ one_cast_pos, zpow_neg, inv_mul_le_iff₀ (by positivity), mul_comm]
  exact_mod_cast least

theorem firstLarge_magnitude : magnitude firstLarge = (10 : Rat) ^ (16 : Int) := by
  rw [magnitude, plain_ends.2.2, Nat.cast_mul, mul_div_cancel_right₀ _ one_cast_pos.ne']
  norm_num

/-- Rounding does not lead out of the range: its lower end is a decimal of one digit, and its upper
end is a double. -/
theorem shortest_bounds {p : Nat} (low : firstPlain ≤ p) (high : p < firstLarge) :
    (10 : Rat) ^ (-4 : Int) ≤ (shortest p).value ∧
      (shortest p).value < (10 : Rat) ^ (16 : Int) := by
  have rounds := roundsTo_shortest p
  constructor
  · rcases low.eq_or_lt with rfl | above
    · rw [plain_ends.2.1, value]
      norm_num
    · obtain ⟨q, rfl⟩ := Nat.exists_eq_succ_of_ne_zero (Nat.ne_of_gt (Nat.zero_lt_of_lt above))
      calc (10 : Rat) ^ (-4 : Int) ≤ magnitude firstPlain := firstPlain_magnitude
        _ ≤ magnitude q := magnitude_strictMono.monotone (Nat.le_of_lt_succ above)
        _ ≤ midpoint q := (magnitude_lt_midpoint q).le
        _ ≤ (shortest (q + 1)).value := rounds.above q rfl
  · calc (shortest p).value ≤ midpoint p := rounds.below
      _ < magnitude (p + 1) := midpoint_lt_magnitude p
      _ ≤ magnitude firstLarge := magnitude_strictMono.monotone high
      _ = (10 : Rat) ^ (16 : Int) := firstLarge_magnitude

def IsPlain (p : Nat) : Prop := p = 0 ∨ firstPlain ≤ p ∧ p < firstLarge

theorem zero_writes : Writes ['0', '.', '0'] 0 :=
  ⟨['0'], ['0'], rfl, by simp, by simp, by simp, by norm_num [digitsValue]⟩

theorem patternText_writes {p : Nat} (plain : IsPlain p) :
    ∃ r, Writes (patternText p) r ∧ RoundsTo r p := by
  rcases plain with rfl | ⟨low, high⟩
  · exact ⟨0, zero_writes, magnitude_zero ▸ roundsTo_magnitude 0⟩
  · have finite : firstLarge < infinitePattern := by decide
    have positive : 0 < firstPlain := by decide
    have text : patternText p = decimalText (shortest p) := by
      rw [patternText, if_neg (by omega), if_neg (by omega), if_neg (by omega)]
    obtain ⟨lower, upper⟩ := shortest_bounds low high
    rw [text]
    exact ⟨_, decimalText_writes lower upper, roundsTo_shortest p⟩

theorem patternText_shape {p : Nat} (plain : IsPlain p) : Shape .number (patternText p) := by
  obtain ⟨r, writes, -⟩ := patternText_writes plain
  exact writes.shape

theorem patternText_reads_back {p : Nat} (plain : IsPlain p) :
    (ofChars (patternText p)).toFloat = ofPattern p := by
  have finite : p ≤ infinitePattern := by
    unfold IsPlain firstLarge infinitePattern at *
    omega
  obtain ⟨r, writes, rounds⟩ := patternText_writes plain
  rw [← writes.value_ofChars] at rounds
  exact toFloat_of_roundsTo rounds finite

end Patterns
end Reckoner.Decimal

import Mathlib
import Reckoner.Proofs.Number.Rounding
import Reckoner.Proofs.Printed

/- Number literals, of any length, are correctly rounded: a line that holds nothing else is told the
   double nearest to the number that is written, or infinity if the number is beyond the doubles. -/
namespace Reckoner
open Binary64 Decimal Token

/-- Digits, with or without a point among them, and the number that they stand for. -/
inductive Denotes : List Char → Rat → Prop
  | whole {digits : List Char} (some : digits ≠ []) (all : ∀ c ∈ digits, c.isDigit) :
      Denotes digits (Nat.ofDigitChars 10 digits 0)
  | fraction {whole digits : List Char} (someWhole : whole ≠ []) (some : digits ≠ [])
      (allWhole : ∀ c ∈ whole, c.isDigit) (all : ∀ c ∈ digits, c.isDigit) :
      Denotes (whole ++ '.' :: digits)
        (Nat.ofDigitChars 10 whole 0 + Nat.ofDigitChars 10 digits 0 / 10 ^ digits.length)

namespace Denotes
variable {cs : List Char} {r : Rat}

theorem shape (denotes : Denotes cs r) : Shape .number cs := by
  cases denotes with
  | whole some all => exact .whole some all
  | fraction someWhole some allWhole all => exact .fraction someWhole some allWhole all

theorem value_ofChars (denotes : Denotes cs r) : (ofChars cs).value = r := by
  cases denotes with
  | whole some all =>
    have noPoint : ∀ c ∈ cs, c ≠ '.' := by
      rintro c member rfl
      exact absurd (all '.' member) (by decide)
    have front : cs.takeWhile (· ≠ '.') = cs :=
      List.takeWhile_eq_self_iff.mpr (by simpa using noPoint)
    have back : cs.dropWhile (· ≠ '.') = [] :=
      List.dropWhile_eq_nil_iff.mpr (by simpa using noPoint)
    simp only [Decimal.value, ofChars, front, back, List.drop_nil, List.append_nil,
      List.length_nil, digitsValue_eq]
    simp
  | @fraction whole digits someWhole some allWhole all =>
    have both := List.forall_mem_append.mpr ⟨allWhole, all⟩
    have writes : Writes (whole ++ '.' :: digits)
        (Nat.ofDigitChars 10 whole 0 + Nat.ofDigitChars 10 digits 0 / 10 ^ digits.length) := by
      refine ⟨whole, digits, rfl, someWhole, some, both, ?_⟩
      rw [digitsValue_append, digitsValue_eq, digitsValue_eq, zpow_neg, zpow_natCast]
      push_cast
      field_simp
    exact writes.value_ofChars

def formula (denotes : Denotes cs r) : Formula :=
  .number ⟨String.ofList cs, by rw [String.toList_ofList]; exact denotes.shape⟩

theorem eval_formula (denotes : Denotes cs r) (env : Environment) :
    denotes.formula.tree.eval env = .ok (ofChars cs).toFloat := by
  simp only [formula, Formula.tree, Reader.literal, Tree.eval, String.toList_ofList]

theorem loose_formula (denotes : Denotes cs r) {before after : List Char}
    (blankBefore : ∀ c ∈ before, Text.isBlank c) (blankAfter : ∀ c ∈ after, Text.isBlank c) :
    Loose (Formula.lineTokens none denotes.formula) (before ++ (cs ++ after)) := by
  conv => rhs; rw [← String.toList_ofList (l := cs)]
  exact .next blankBefore (.done blankAfter)

end Denotes

namespace Environment

/-- A line with nothing but a number on it, and blanks around the number, is told the number as a
double, in every environment and however many digits there are. -/
theorem literals_correctly_rounded (env : Environment) {line : String}
    {before text after : List Char} {r : Rat} (written : line.toList = before ++ (text ++ after))
    (blankBefore : ∀ c ∈ before, Text.isBlank c) (blankAfter : ∀ c ∈ after, Text.isBlank c)
    (denotes : Denotes text r) :
    ∃ v, (env.step line).answer = .result ⟨none, v⟩ ∧ CorrectlyRounded r v := by
  have loose := denotes.loose_formula blankBefore blankAfter
  rw [← written] at loose
  have nested : Nested Tree.nestingLimit (Formula.lineTokens none denotes.formula) :=
    nested_of_opened (Nat.zero_le _)
  have told := (Formula.step_of_loose none _ loose nested (denotes.eval_formula env) (by simp)).1
  refine ⟨_, told, ?_⟩
  rw [← denotes.value_ofChars]
  exact toFloat_correctlyRounded _

/-- One more than 2^53 is half way between doubles. -/
theorem halfway_to_even :
    (∀ c ∈ [' ', '\t'], Text.isBlank c) ∧ (∀ c ∈ [' '], Text.isBlank c) ∧
      Denotes "09007199254740993.0".toList 9007199254740993 ∧
      (builtin.step " \t09007199254740993.0 ").answer = .result ⟨none, 9007199254740992.0⟩ ∧
      CorrectlyRounded 9007199254740993 9007199254740992.0 := by
  have blank : ∀ c ∈ [' ', '\t'], Text.isBlank c := List.all_eq_true.mp (by decide +kernel)
  have space : ∀ c ∈ [' '], Text.isBlank c := List.forall_mem_singleton.mpr rfl
  have written : " \t09007199254740993.0 ".toList =
      [' ', '\t'] ++ ("09007199254740993.0".toList ++ [' ']) := by decide +kernel
  have point : "09007199254740993.0".toList = "09007199254740993".toList ++ '.' :: ['0'] := by
    decide +kernel
  have digits : Nat.ofDigitChars 10 "09007199254740993".toList 0 = 9007199254740993 ∧
      Nat.ofDigitChars 10 ['0'] 0 = 0 := by
    decide +kernel
  have all : (∀ c ∈ "09007199254740993".toList, c.isDigit) ∧ ∀ c ∈ ['0'], c.isDigit :=
    ⟨List.all_eq_true.mp (by decide +kernel), List.forall_mem_singleton.mpr rfl⟩
  have denotes : Denotes "09007199254740993.0".toList 9007199254740993 := by
    rw [point]
    convert Denotes.fraction (by decide +kernel) (by decide) all.1 all.2
    rw [digits.1, digits.2]
    norm_num
  have even : (builtin.step " \t09007199254740993.0 ").answer =
      .result ⟨none, 9007199254740992.0⟩ := by
    decide +kernel
  obtain ⟨v, told, rounded⟩ := literals_correctly_rounded builtin written blank space denotes
  obtain rfl : v = 9007199254740992.0 := by
    rw [even] at told
    simpa using told.symm
  exact ⟨blank, space, denotes, even, rounded⟩

end Environment
end Reckoner

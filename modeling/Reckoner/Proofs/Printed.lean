import Mathlib
import Reckoner.Proofs.Formula.RoundTrip
import Reckoner.Proofs.Number.Written
import Reckoner.Proofs.Reading

/- A printed result is a line itself: a number, a sign before it if it is negative, and the name
   that it has. Its tokens spell a formula, and the value of the formula is the one that was
   printed. -/
namespace Reckoner
open Binary64 Decimal Number Token

def Plain (v : Float) : Prop := v = 0.0 ∨ v = -0.0 ∨ 1e-4 ≤ v.abs ∧ v.abs < 1e16

theorem plain_literals : pattern 0.0 = 0 ∧ pattern (-0.0) = 0 ∧
    ofPattern firstPlain = (1e-4 : Float) ∧ ofPattern firstLarge = (1e16 : Float) := by
  decide +kernel

theorem pattern_plain {v : Float} (plain : Plain v) :
    pattern v ≤ infinitePattern ∧ IsPlain (pattern v) := by
  obtain ⟨zero, negativeZero, first, large⟩ := plain_literals
  rcases plain with rfl | rfl | ⟨low, high⟩
  · rw [zero]
    exact ⟨Nat.zero_le _, .inl rfl⟩
  · rw [negativeZero]
    exact ⟨Nat.zero_le _, .inl rfl⟩
  · have number := number_of_le_abs low
    rw [abs_eq number, ← first, ofPattern_le (by decide) number] at low
    rw [abs_eq number, ← large, ofPattern_lt number (by decide)] at high
    exact ⟨number, .inr ⟨low, high⟩⟩

namespace Formula

/-- A line that spells a formula is told the value of the formula, and the value is put under the
name that the line begins with. -/
theorem step_of_loose {env : Environment} (target : Option Variable) (formula : Formula)
    {line : String} (loose : Loose (lineTokens target formula) line.toList)
    (nested : Nested Tree.nestingLimit (lineTokens target formula)) {v : Float}
    (value : formula.tree.eval env = .ok v)
    (free : ∀ x ∈ target, env.constants.contains x.name = false) :
    (env.step line).answer = .result ⟨target.map (·.name), v⟩ ∧ (env.step line).environment =
      target.elim env fun x => { env with bindings := env.bindings.insert x.name v } := by
  have spread := spread_of_loose loose (line_shaped target formula) (line_apart target formula)
  have read : Reading.ofLine line =
      .ok ⟨lineTokens target formula ++ [lineEnd], lineTree target formula⟩ :=
    (reading_iff _ _ _).mpr ⟨_, rfl, spread, line_statement target formula, nested⟩
  obtain ⟨answer, environment⟩ := Environment.step_of_reading env read
  have derives := tokens_derive formula .alone
  rw [answer, environment]
  cases target with
  | none =>
    simp only [lineTree, Environment.execute_expression env derives nested, value]
    exact ⟨rfl, rfl⟩
  | some x =>
    have inner := nested_assigned rfl nested
    have constant : ¬env.constants.contains x.name := by simp [free x rfl]
    simp only [lineTree, Environment.execute_assignment env x.name derives inner, value, bind,
      Except.bind, Environment.assign, if_neg constant]
    exact ⟨rfl, rfl⟩

def ofPlain {v : Float} (plain : Plain v) : Formula :=
  let number := Formula.number
    ⟨String.ofList (patternText (pattern v)), by
      rw [String.toList_ofList]
      exact patternText_shape (pattern_plain plain).2⟩
  if isNegative v then .signed .minus number else number

variable {v : Float} (plain : Plain v)

theorem loose_ofPlain : Loose ((ofPlain plain).tokens .alone) (Number.text v).toList := by
  have touching := loose_touching ((ofPlain plain).tokens .alone)
  convert touching using 1
  have number := (pattern_plain plain).1
  rw [Number.text, String.toList_ofList, ofPlain]
  cases isNegative v with
  | false => simp [Formula.tokens]
  | true =>
    simp [Formula.tokens, inBracketsIf, Place.enclosesSigned, Mark.token, number]

theorem eval_ofPlain (env : Environment) : (ofPlain plain).tree.eval env = .ok v := by
  obtain ⟨number, range⟩ := pattern_plain plain
  have back := patternText_reads_back range
  unfold ofPlain
  cases sign : isNegative v with
  | false =>
    simp only [Bool.false_eq_true, if_false, Formula.tree, Reader.literal, Tree.eval,
      String.toList_ofList, back, ofPattern_pattern number sign]
  | true =>
    simp only [if_true, Formula.tree, Reader.literal, Tree.eval, String.toList_ofList, back, bind,
      Except.bind, Mark.op, Op.applySign, neg_ofPattern_pattern number sign]

theorem ofPlain_unnested (limit : Nat) (target : Option Variable) :
    Nested limit (lineTokens target (ofPlain plain)) := by
  apply nested_of_opened
  unfold ofPlain
  cases target <;> cases isNegative v <;> exact Nat.zero_le _

end Formula

namespace Environment

/-- Every printed result can be typed back in: the line is told the same double, zero with its sign,
and the same name, which it stands for afterwards. -/
theorem printed_results_read_back (env : Environment) (n : String)
    (identifier : Shape .identifier n.toList) (free : env.constants.contains n = false) (v : Float)
    (plain : Plain v) :
    (env.step (Answer.result ⟨none, v⟩).text).answer = .result ⟨none, v⟩ ∧
      (env.step (Answer.result ⟨some n, v⟩).text).answer = .result ⟨some n, v⟩ ∧
      (env.step (Answer.result ⟨some n, v⟩).text).environment =
        { env with bindings := env.bindings.insert n v } := by
  have spelled := Formula.loose_ofPlain plain
  have value := Formula.eval_ofPlain plain env
  constructor
  · have nested := Formula.ofPlain_unnested plain Tree.nestingLimit none
    exact (Formula.step_of_loose none _ spelled nested value (by simp)).1
  · have nested := Formula.ofPlain_unnested plain Tree.nestingLimit (some ⟨n, identifier⟩)
    have blank : ∀ c ∈ [' '], Text.isBlank c := List.forall_mem_singleton.mpr rfl
    have text : (Answer.result ⟨some n, v⟩).text.toList =
        [] ++ (n.toList ++ ([' '] ++ (['='] ++ ([' '] ++ (Number.text v).toList)))) := by
      rw [Answer.text, String.toList_append, String.toList_append, List.append_assoc]
      rfl
    have named : Loose (Formula.lineTokens (some ⟨n, identifier⟩) (Formula.ofPlain plain))
        (Answer.result ⟨some n, v⟩).text.toList := by
      rw [text]
      exact .next (List.forall_mem_nil _) (.next blank (loose_gap blank spelled))
    exact Formula.step_of_loose (some ⟨n, identifier⟩) _ named nested value (by simpa using free)

theorem seventeen_digits_read_back :
    Shape .identifier "x1".toList ∧ builtin.constants.contains "x1" = false ∧
      Plain (-0.30000000000000004) ∧
      (Answer.result ⟨some "x1", -0.30000000000000004⟩).text = "x1 = -0.30000000000000004" ∧
      (builtin.step "x1 = -0.30000000000000004").answer =
        .result ⟨some "x1", -0.30000000000000004⟩ := by
  have identifier : Shape .identifier (['x'] ++ ['1']) :=
    .identifier (by decide) (List.forall_mem_singleton.mpr rfl) (List.forall_mem_singleton.mpr rfl)
  have free : builtin.constants.contains "x1" = false := by decide
  have closed : (1e-4 ≤ (-0.30000000000000004 : Float).abs ∧
      (-0.30000000000000004 : Float).abs < 1e16) ∧
      (Answer.result ⟨some "x1", -0.30000000000000004⟩).text = "x1 = -0.30000000000000004" := by
    decide +kernel
  obtain ⟨range, text⟩ := closed
  have plain : Plain (-0.30000000000000004) := .inr (.inr range)
  have back := (printed_results_read_back builtin "x1" identifier free _ plain).2.1
  rw [text] at back
  exact ⟨identifier, free, plain, text, back⟩

end Environment
end Reckoner

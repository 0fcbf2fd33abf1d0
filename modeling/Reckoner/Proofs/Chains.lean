import Reckoner.Proofs.Formula.RoundTrip
import Reckoner.Proofs.Reading

/- Chains: lines of operands with operators of one level between them, and maybe a sign in front.
   Their values are folded from the left end to the right one, at every level, and a sign goes over
   all of them. -/
namespace Reckoner
open Grammar Token

namespace Joiner

def apply : Joiner → Float → Float → Float
  | add, a, b => a + b
  | sub, a, b => a - b
  | mul, a, b => a * b
  | div, a, b => Arithmetic.divide a b
  | pow, a, b => Arithmetic.power a b

theorem combine_op (joiner : Joiner) (a b : Float) :
    joiner.op.combine a b = .ok (joiner.apply a b) := by
  cases joiner <;> rfl

end Joiner

namespace Mark

def apply : Mark → Float → Float
  | minus, a => -a
  | plus, a => a

theorem apply_op (mark : Mark) (a : Float) : mark.op.applySign a = .ok (mark.apply a) := by
  cases mark <;> rfl

end Mark

namespace Token

instance (tokens : List Token) : Decidable (Balanced tokens) :=
  inferInstanceAs (Decidable (opened tokens = closed tokens))

def Tight (level : Nat) (tokens : List Token) : Prop :=
  ∀ place, (inside : place < tokens.length) → Balanced (tokens.take place) →
    ∀ op ∈ tokens[place].kind.binary?, ∀ own ∈ op.level?, level < own

instance (level : Nat) (tokens : List Token) : Decidable (Tight level tokens) :=
  inferInstanceAs (Decidable (∀ place, (inside : place < tokens.length) →
    Balanced (tokens.take place) → ∀ op ∈ tokens[place].kind.binary?, ∀ own ∈ op.level?,
      level < own))

theorem tight_outside {level : Nat} {xs ys : List Token} {token : Token}
    (tight : Tight level (xs ++ token :: ys)) (balanced : Balanced xs) {op : Op}
    (binary : token.kind.binary? = some op) {own : Nat} (known : op.level? = some own) :
    level < own := by
  have inside : xs.length < (xs ++ token :: ys).length := by simp
  have here : (xs ++ token :: ys)[xs.length] = token := by simp
  apply tight xs.length inside _ op _ own known
  · rwa [List.take_left]
  · rw [here]
    exact binary

end Token

namespace Grammar

theorem derives_tight {level : Nat} {phrase : Phrase} {xs : List Token} {tree : Tree}
    (derives : Derives phrase xs tree) (tight : Tight level xs) :
    ∃ lower : Phrase, lower.rank ≤ 2 - level ∧ Derives lower xs tree := by
  have atom : Phrase.atom.rank ≤ 2 - level := Nat.zero_le _
  induction derives with
  | unsigned _ ih => exact ih tight
  | @signed token xs op tree sign _ _ =>
    obtain ⟨joint, binary, known⟩ := sign_level sign
    have whole : Tight level ([] ++ token :: xs) := tight
    have below := tight_outside whole rfl binary known
    omega
  | single _ _ ih => exact ih tight
  | @joined chain phrase token xs ys op left right operands before joint last _ _ =>
    -- the last operator of the chain stands behind balanced tokens, outside of all brackets
    obtain ⟨binary, own, known, rank⟩ := joint_level joint
    have below := tight_outside tight (derives_balanced before) binary known
    exact ⟨chain, by omega, .joined operands before joint last⟩
  | number => exact ⟨.atom, atom, .number⟩
  | name => exact ⟨.atom, atom, .name⟩
  | call letters first last argument _ =>
    exact ⟨.atom, atom, .call letters first last argument⟩
  | bracketed first last inside _ => exact ⟨.atom, atom, .bracketed first last inside⟩

end Grammar

/-- The text of an unsigned expression that is an operand of the level: the operators of the level
and of the weaker ones stand within brackets only. -/
structure Operand (level : Nat) where
  text : String
  reading : Reading
  read : Reading.ofLine text = .ok reading
  expression : ∀ x value, reading.tree ≠ .assign x value
  tight : Tight level (body reading.tokens)

structure Link (level : Nat) where
  joiner : Joiner
  here : joiner.level = level
  before : String
  after : String
  blankBefore : ∀ c ∈ before.toList, Text.isBlank c
  blankAfter : ∀ c ∈ after.toList, Text.isBlank c
  operand : Operand level

structure Chain (level : Nat) where
  mark : Option Mark
  first : Operand level
  links : List (Link level)

def Answer.ofValue : Except Fault Float → Answer
  | .error fault => .error fault.message none
  | .ok value => .result ⟨none, value⟩

namespace Answer

theorem of_value_eq_result {outcome : Except Fault Float} {value : Float} :
    ofValue outcome = .result ⟨none, value⟩ ↔ outcome = .ok value := by
  cases outcome <;> simp [ofValue]

theorem of_value_eq_error {outcome : Except Fault Float} {message : String}
    {details : Option String} (told : ofValue outcome = .error message details) :
    ∃ fault, outcome = .error fault ∧ Answer.error fault.message none = .error message details := by
  cases outcome with
  | error fault => exact ⟨fault, rfl, told⟩
  | ok value => cases told

end Answer

theorem answer_of_spread (env : Environment) {text : String} {words : List Token} {tree : Tree}
    (spread : Spread words text.toList) (nested : Nested Tree.nestingLimit words)
    (derives : Derives .expression words tree) :
    (env.step text).answer = .ofValue (tree.eval env) := by
  have read : Reading.ofLine text = .ok ⟨words ++ [lineEnd], tree⟩ :=
    (reading_iff _ _ _).mpr ⟨words, rfl, spread, .expression derives, nested⟩
  rw [(Environment.step_of_reading env read).1, Environment.execute_expression env derives nested]
  cases tree.eval env <;> rfl

variable {level : Nat}

namespace Operand

def words (operand : Operand level) : List Token := body operand.reading.tokens

def tree (operand : Operand level) : Tree := operand.reading.tree

theorem reads (operand : Operand level) :
    Spread operand.words operand.text.toList ∧ Nested Tree.nestingLimit operand.words ∧
      Derives .expression operand.words operand.tree := by
  obtain ⟨text, ⟨tokens, tree⟩, read, expression, _⟩ := operand
  obtain ⟨words, rfl, spread, statement, nested⟩ := (reading_iff _ _ _).mp read
  simp only [Operand.words, Operand.tree, body_of_spread spread]
  refine ⟨spread, nested, ?_⟩
  cases statement with
  | expression derives => exact derives
  | assignment => exact absurd rfl (expression _ _)

theorem exists_operand {text : String} {tree : Tree}
    (found : (Reading.ofLine text).toOption.map
      (fun reading => (reading.tree, decide (Tight level (body reading.tokens)))) =
        some (tree, true))
    (expression : ∀ x value, tree ≠ .assign x value) :
    ∃ operand : Operand level, operand.text = text ∧ operand.tree = tree := by
  obtain ⟨reading, read, shown⟩ := Option.map_eq_some_iff.mp found
  obtain ⟨rfl, tight⟩ := Prod.mk.inj shown
  exact ⟨⟨text, reading, ok_of_toOption read, expression, of_decide_eq_true tight⟩, rfl, rfl⟩

theorem derives_operand (operand : Operand level) {phrase : Phrase}
    (high : 2 - level ≤ phrase.rank) : Derives phrase operand.words operand.tree := by
  obtain ⟨_, _, derives⟩ := operand.reads
  obtain ⟨lower, low, tightly⟩ := derives_tight derives operand.tight
  exact derives_up tightly (Nat.le_trans low high)

theorem answer (operand : Operand level) (env : Environment) :
    (env.step operand.text).answer = .ofValue (operand.tree.eval env) := by
  obtain ⟨spread, nested, derives⟩ := operand.reads
  exact answer_of_spread env spread nested derives

end Operand

namespace Link

def text (link : Link level) : String :=
  link.before ++ link.joiner.token.lexeme ++ link.after ++ link.operand.text

def words (link : Link level) : List Token := link.joiner.token :: link.operand.words

def extend (left : Tree) (link : Link level) : Tree :=
  .binary link.joiner.op left link.operand.tree

theorem clear_spread (links : List (Link level)) :
    Lexeme.Clear (String.join (links.map text)).toList ∧
      Spread (links.flatMap words) (String.join (links.map text)).toList := by
  induction links with
  | nil => exact ⟨Lexeme.clear_nil, .done (by simp)⟩
  | cons link links ih =>
    obtain ⟨clear, later⟩ := ih
    have shape := Formula.joiner_shape link.joiner
    have kinds : link.joiner.token.kind ≠ .number ∧ link.joiner.token.kind ≠ .identifier := by
      cases link.joiner <;> simp [Joiner.token]
    have operand := spread_gap link.blankAfter (spread_append link.operand.reads.1 clear later)
    have split : (String.join ((link :: links).map text)).toList =
        link.before.toList ++ (link.joiner.token.lexeme.toList ++
          (link.after.toList ++ (link.operand.text.toList ++
            (String.join (links.map text)).toList))) := by
      simp [text]
    rw [split]
    constructor
    · by_cases touching : link.before.toList = []
      · rw [touching]
        exact symbol_clear shape kinds _
      · exact blank_clear link.blankBefore touching _
    · exact .next link.blankBefore shape (ends_of_symbol kinds _ _) operand

theorem nested_links (links : List (Link level)) :
    Nested Tree.nestingLimit (links.flatMap words) := by
  induction links with
  | nil => exact nested_nil _
  | cons link links ih =>
    obtain ⟨_, nested, derives⟩ := link.operand.reads
    have kind := joint_kind link.joiner.joint
    have after := nested_append (derives_balanced derives) nested ih
    exact nested_cons kind.2.1 kind.2.2 after

theorem derives_links (links : List (Link level)) {phrase : Phrase} {xs : List Token} {tree : Tree}
    (derives : Derives phrase xs tree) (low : phrase.rank ≤ 3 - level) :
    Derives .sum (xs ++ links.flatMap words) (links.foldl extend tree) := by
  -- the first operand may be of any lower rank; with a link after it, it is a chain of the level
  induction links generalizing phrase xs tree with
  | nil =>
    have sum : phrase.rank ≤ Phrase.sum.rank := Nat.le_trans low (Nat.sub_le 3 level)
    rw [List.flatMap_nil, List.append_nil]
    exact derives_up derives sum
  | cons link links ih =>
    have rank := link.joiner.chain_rank
    have below := link.joiner.operand_rank
    rw [link.here] at rank
    have left : Derives link.joiner.chain xs tree := derives_up derives (by omega)
    have right : Derives link.joiner.operand link.operand.words link.operand.tree :=
      link.operand.derives_operand (by omega)
    have whole := ih (.joined link.joiner.operands left link.joiner.joint right) (by omega)
    rw [List.append_assoc] at whole
    exact whole

/-- Goes on from the value of what stands before the links. The first operand without a value ends
it. -/
def fold (env : Environment) (links : List (Link level)) (start : Float) : Except Fault Float :=
  links.foldlM (fun left link => (link.operand.tree.eval env).map (link.joiner.apply left)) start

theorem fold_cons (env : Environment) (link : Link level) (links : List (Link level))
    (start : Float) :
    fold env (link :: links) start =
      (link.operand.tree.eval env).map (link.joiner.apply start) >>= fold env links := by
  rw [fold, List.foldlM_cons]
  rfl

theorem eval_links (links : List (Link level)) (env : Environment) (tree : Tree) :
    (links.foldl extend tree).eval env = tree.eval env >>= fold env links := by
  induction links generalizing tree with
  | nil =>
    rw [List.foldl_nil]
    cases tree.eval env <;> rfl
  | cons link links ih =>
    rw [List.foldl_cons, ih, extend, Tree.eval, bind_assoc]
    congr 1
    funext start
    rw [fold_cons]
    cases link.operand.tree.eval env with
    | error fault => rfl
    | ok value => simp [bind, Except.bind, Except.map, Joiner.combine_op]

theorem fold_values {env : Environment} (links : List (Link level)) {value : String → Float}
    (known : ∀ link ∈ links,
      (env.step link.operand.text).answer = .result ⟨none, value link.operand.text⟩)
    (start : Float) :
    fold env links start = .ok
      (links.foldl (fun left link => link.joiner.apply left (value link.operand.text)) start) := by
  induction links generalizing start with
  | nil => rfl
  | cons link links ih =>
    obtain ⟨here, later⟩ := List.forall_mem_cons.mp known
    rw [link.operand.answer, Answer.of_value_eq_result] at here
    rw [fold_cons, here]
    exact ih later _

theorem fold_error {env : Environment} (links : List (Link level)) {before after : List String}
    {text : String} (split : links.map (·.operand.text) = before ++ text :: after)
    (pass : ∀ earlier ∈ before, ∃ value, (env.step earlier).answer = .result ⟨none, value⟩)
    {message : String} {details : Option String}
    (fails : (env.step text).answer = .error message details) (start : Float) :
    ∃ fault, fold env links start = .error fault ∧
      Answer.error fault.message none = .error message details := by
  induction links generalizing before start with
  | nil => simp at split
  | cons link links ih =>
    rw [List.map_cons] at split
    cases before with
    | nil =>
      obtain ⟨rfl, _⟩ := List.cons.inj split
      rw [link.operand.answer] at fails
      obtain ⟨fault, none, told⟩ := Answer.of_value_eq_error fails
      exact ⟨fault, by rw [fold_cons, none]; rfl, told⟩
    | cons earlier before =>
      obtain ⟨rfl, rest⟩ := List.cons.inj split
      obtain ⟨⟨value, here⟩, later⟩ := List.forall_mem_cons.mp pass
      rw [link.operand.answer, Answer.of_value_eq_result] at here
      rw [fold_cons, here]
      exact ih rest later _

end Link

namespace Chain

def text (chain : Chain level) : String :=
  (match chain.mark with
    | none => ""
    | some mark => mark.token.lexeme) ++ chain.first.text ++ String.join (chain.links.map Link.text)

def operands (chain : Chain level) : List String :=
  chain.first.text :: chain.links.map (·.operand.text)

def signed (chain : Chain level) (value : Float) : Float :=
  match chain.mark with
  | none => value
  | some mark => mark.apply value

def folded (chain : Chain level) (value : String → Float) : Float :=
  chain.links.foldl (fun left link => link.joiner.apply left (value link.operand.text))
    (value chain.first.text)

def outcome (chain : Chain level) (env : Environment) : Except Fault Float :=
  chain.first.tree.eval env >>= Link.fold env chain.links

theorem unsigned_reads (chain : Chain level) :
    ∃ words tree,
      Spread words (chain.first.text ++ String.join (chain.links.map Link.text)).toList ∧
        Nested Tree.nestingLimit words ∧ Derives .sum words tree ∧
          ∀ env, tree.eval env = chain.outcome env := by
  obtain ⟨clear, links⟩ := Link.clear_spread chain.links
  obtain ⟨spread, nested, derives⟩ := chain.first.reads
  have inside := Link.nested_links chain.links
  obtain ⟨phrase, low, tightly⟩ := derives_tight derives chain.first.tight
  refine ⟨_, chain.links.foldl Link.extend chain.first.tree, ?_,
    nested_append (derives_balanced derives) nested inside,
    Link.derives_links chain.links tightly (by omega), fun env => Link.eval_links _ env _⟩
  rw [String.toList_append]
  exact spread_append spread clear links

theorem answer (chain : Chain level) (env : Environment) :
    (env.step chain.text).answer = .ofValue ((chain.outcome env).map chain.signed) := by
  obtain ⟨words, tree, spread, nested, derives, evaluated⟩ := chain.unsigned_reads
  rw [← evaluated env]
  obtain ⟨mark, first, links⟩ := chain
  cases mark with
  | none =>
    have text : (Chain.text ⟨none, first, links⟩) =
        first.text ++ String.join (links.map Link.text) := by
      simp [Chain.text]
    rw [text, answer_of_spread env spread nested (.unsigned derives)]
    cases tree.eval env <;> rfl
  | some mark =>
    have text : (Chain.text ⟨some mark, first, links⟩).toList =
        [] ++ (mark.token.lexeme.toList ++
          (first.text ++ String.join (links.map Link.text)).toList) := by
      simp [Chain.text]
    have kinds : mark.token.kind ≠ .number ∧ mark.token.kind ≠ .identifier := by
      cases mark <;> simp [Mark.token]
    have kind := sign_kind mark.sign
    have whole : Spread (mark.token :: words) (Chain.text ⟨some mark, first, links⟩).toList := by
      rw [text]
      exact .next (List.forall_mem_nil _) (Formula.mark_shape mark) (ends_of_symbol kinds _ _)
        spread
    rw [answer_of_spread env whole (nested_cons kind.2.1 kind.2.2 nested)
      (.signed mark.sign derives), Tree.eval]
    cases tree.eval env with
    | error fault => rfl
    | ok value => simp [bind, Except.bind, Except.map, Mark.apply_op, signed]

/-- At every level a chain of any length has the value of its operands taken together from the left
end to the right one, and a sign is applied to that value. If not all of the operands have values,
the chain is told what the leftmost of these is told by itself. -/
theorem folded_from_left (env : Environment) (chain : Chain level) :
    (∀ text ∈ chain.operands, (∃ value, (env.step text).answer = .result ⟨none, value⟩) ∨
      ∃ message, (env.step text).answer = .error message none) ∧
    (∀ value : String → Float,
      (∀ text ∈ chain.operands, (env.step text).answer = .result ⟨none, value text⟩) →
        (env.step chain.text).answer = .result ⟨none, chain.signed (chain.folded value)⟩) ∧
    ∀ before text after, chain.operands = before ++ text :: after →
      (∀ earlier ∈ before, ∃ value, (env.step earlier).answer = .result ⟨none, value⟩) →
        ∀ message details, (env.step text).answer = .error message details →
          (env.step chain.text).answer = .error message details := by
  refine ⟨?_, ?_, ?_⟩
  · have alone : ∀ operand : Operand level,
        (∃ value, (env.step operand.text).answer = .result ⟨none, value⟩) ∨
          ∃ message, (env.step operand.text).answer = .error message none := by
      intro operand
      rw [operand.answer]
      cases operand.tree.eval env with
      | error fault => exact .inr ⟨_, rfl⟩
      | ok value => exact .inl ⟨_, rfl⟩
    intro text member
    rcases List.mem_cons.mp member with rfl | later
    · exact alone chain.first
    · obtain ⟨link, _, rfl⟩ := List.mem_map.mp later
      exact alone link.operand
  · intro value known
    obtain ⟨start, later⟩ := List.forall_mem_cons.mp known
    have links := Link.fold_values chain.links (List.forall_mem_map.mp later)
    rw [chain.first.answer, Answer.of_value_eq_result] at start
    rw [chain.answer, outcome, start]
    simp only [bind, Except.bind, links]
    rfl
  · intro before text after split pass message details fails
    rw [chain.answer, outcome]
    cases before with
    | nil =>
      obtain ⟨rfl, _⟩ := List.cons.inj split
      rw [chain.first.answer] at fails
      obtain ⟨fault, none, told⟩ := Answer.of_value_eq_error fails
      rw [none]
      exact told
    | cons earlier before =>
      obtain ⟨rfl, rest⟩ := List.cons.inj split
      obtain ⟨⟨value, start⟩, later⟩ := List.forall_mem_cons.mp pass
      rw [chain.first.answer, Answer.of_value_eq_result] at start
      obtain ⟨fault, none, told⟩ := Link.fold_error chain.links rest later fails value
      rw [start]
      simp only [bind, Except.bind, none]
      exact told

theorem signed_product_folded :
    let env := { Environment.builtin with bindings := .ofList [("x", 3)] }
    (∃ a b c, (env.step "8").answer = .result ⟨none, a⟩ ∧
      (env.step "2 ^ x").answer = .result ⟨none, b⟩ ∧
      (env.step "(1 + x)").answer = .result ⟨none, c⟩ ∧
      (env.step "-8 / 2 ^ x * (1 + x)").answer = .result ⟨none, -(Arithmetic.divide a b * c)⟩) ∧
    (env.step "-8 / q(2) * y").answer = (env.step "q(2)").answer ∧
      (env.step "q(2)").answer = .error "'q' is not a valid function name" none := by
  intro env
  obtain ⟨eight, eightText, eightTree⟩ : ∃ operand : Operand 1,
      operand.text = "8" ∧ operand.tree = Reader.literal "8" :=
    Operand.exists_operand (by decide +kernel) (by simp [Reader.literal])
  obtain ⟨power, powerText, powerTree⟩ : ∃ operand : Operand 1,
      operand.text = "2 ^ x" ∧ operand.tree = .binary .pow (Reader.literal "2") (.name "x") :=
    Operand.exists_operand (by decide +kernel) (by simp)
  obtain ⟨sum, sumText, sumTree⟩ : ∃ operand : Operand 1,
      operand.text = "(1 + x)" ∧ operand.tree = .binary .add (Reader.literal "1") (.name "x") :=
    Operand.exists_operand (by decide +kernel) (by simp)
  obtain ⟨call, callText, callTree⟩ : ∃ operand : Operand 1,
      operand.text = "q(2)" ∧ operand.tree = .call "q" (Reader.literal "2") :=
    Operand.exists_operand (by decide +kernel) (by simp)
  obtain ⟨y, yText, _⟩ : ∃ operand : Operand 1, operand.text = "y" ∧ operand.tree = .name "y" :=
    Operand.exists_operand (by decide +kernel) (by simp)
  have space : ∀ c ∈ [' '], Text.isBlank c := List.forall_mem_singleton.mpr rfl
  have blank : ∀ c ∈ " ".toList, Text.isBlank c := space
  let good : Chain 1 := ⟨some .minus, eight,
    [⟨.div, rfl, " ", " ", blank, blank, power⟩, ⟨.mul, rfl, " ", " ", blank, blank, sum⟩]⟩
  let bad : Chain 1 := ⟨some .minus, eight,
    [⟨.div, rfl, " ", " ", blank, blank, call⟩, ⟨.mul, rfl, " ", " ", blank, blank, y⟩]⟩
  have goodText : good.text = "-8 / 2 ^ x * (1 + x)" := by
    simp only [good, text, Link.text, List.map, eightText, powerText, sumText]
    decide +kernel
  have badText : bad.text = "-8 / q(2) * y" := by
    simp only [bad, text, Link.text, List.map, eightText, callText, yText]
    decide +kernel
  obtain ⟨a, first⟩ : ∃ a, (env.step "8").answer = .result ⟨none, a⟩ := by
    rw [← eightText, eight.answer, eightTree]
    exact ⟨_, rfl⟩
  obtain ⟨b, second⟩ : ∃ b, (env.step "2 ^ x").answer = .result ⟨none, b⟩ := by
    rw [← powerText, power.answer, powerTree]
    exact ⟨_, rfl⟩
  obtain ⟨c, third⟩ : ∃ c, (env.step "(1 + x)").answer = .result ⟨none, c⟩ := by
    rw [← sumText, sum.answer, sumTree]
    exact ⟨_, rfl⟩
  have unknown : (env.step "q(2)").answer = .error "'q' is not a valid function name" none := by
    rw [← callText, call.answer, callTree]
    decide +kernel
  let value : String → Float := fun text =>
    if text = "8" then a else if text = "2 ^ x" then b else c
  have known : ∀ text ∈ good.operands, (env.step text).answer = .result ⟨none, value text⟩ := by
    simp only [good, operands, List.map, eightText, powerText, sumText, List.forall_mem_cons]
    exact ⟨first, second, third, List.forall_mem_nil _⟩
  have whole := (folded_from_left env good).2.1 value known
  have left := (folded_from_left env bad).2.2 ["8"] "q(2)" ["y"]
    (by simp [bad, operands, eightText, callText, yText])
    (List.forall_mem_singleton.mpr ⟨a, first⟩) _ _ unknown
  rw [goodText] at whole
  rw [badText] at left
  refine ⟨⟨a, b, c, first, second, third, ?_⟩, left.trans unknown.symm, unknown⟩
  rw [whole]
  simp only [good, folded, eightText, powerText, sumText, List.foldl]
  rfl

end Chain

end Reckoner

import Reckoner.Proofs.Grammar.Completeness
import Reckoner.Proofs.Grammar.Depth
import Reckoner.Tree.OfTokens

/- Lines are read by the grammar: the tokens before the first end of line derive exactly the tree
   that is read, at most one tree, and a line without a derivation is rejected. -/
namespace Reckoner
open Grammar Token

namespace Token

/-- The tokens before the first end of line. -/
def body (tokens : List Token) : List Token := tokens.takeWhile (·.kind ≠ .lineEnd)

def Ended (tokens : List Token) : Prop := tokens.getLast?.map (·.kind) = some .lineEnd

theorem body_append {xs rest : List Token} (noEnd : ∀ token ∈ xs, token.kind ≠ .lineEnd) :
    body (xs ++ rest) = xs ++ body rest :=
  List.takeWhile_append_of_pos (by simpa using noEnd)

theorem body_of_next {rest : List Token} (next : Kind.next rest = .lineEnd) : body rest = [] := by
  cases rest with
  | nil => rfl
  | cons token rest =>
    simp only [Kind.next] at next
    simp [body, next]

theorem body_split (tokens : List Token) :
    ∃ rest, tokens = body tokens ++ rest ∧ Kind.next rest = .lineEnd := by
  refine ⟨tokens.dropWhile (·.kind ≠ .lineEnd), ?_, ?_⟩
  · exact (List.takeWhile_append_dropWhile).symm
  · have stopped := List.head?_dropWhile_not (fun token : Token => token.kind ≠ .lineEnd) tokens
    cases after : tokens.dropWhile (·.kind ≠ .lineEnd) with
    | nil => rfl
    | cons token rest =>
      rw [after] at stopped
      simpa [Kind.next] using stopped

theorem ended_append {xs : List Token} : Ended (xs ++ [lineEnd]) := by
  simp [Ended, lineEnd]

theorem ended_rest {xs rest : List Token} (ended : Ended (xs ++ rest))
    (noEnd : ∀ token ∈ xs, token.kind ≠ .lineEnd) : Ended rest := by
  cases rest with
  | nil =>
    rw [List.append_nil] at ended
    obtain ⟨last, found, atEnd⟩ := Option.map_eq_some_iff.mp ended
    exact absurd atEnd (noEnd last (List.mem_of_getLast? found))
  | cons token rest =>
    unfold Ended at ended
    rwa [List.getLast?_append, List.getLast?_cons, Option.some_or, ← List.getLast?_cons] at ended

theorem ended_tail {token : Token} {rest : List Token} (ended : Ended (token :: rest))
    (inner : token.kind ≠ .lineEnd) : Ended rest := by
  have whole : Ended ([token] ++ rest) := ended
  exact ended_rest whole (List.forall_mem_singleton.mpr inner)

theorem ended_cons {tokens : List Token} (ended : Ended tokens) :
    ∃ token rest, tokens = token :: rest := by
  cases tokens with
  | nil => cases ended
  | cons token rest => exact ⟨token, rest, rfl⟩

theorem ended_of_line {line : String} {tokens : List Token} (scanned : ofLine line = .ok tokens) :
    Ended tokens := by
  obtain ⟨words, rfl, _⟩ := (of_line_iff line tokens).mp scanned
  exact ended_append

theorem body_assignment (name sign : String) (rest : List Token) :
    body (⟨.identifier, name⟩ :: ⟨.equal, sign⟩ :: rest) =
      ⟨.identifier, name⟩ :: ⟨.equal, sign⟩ :: body rest := by
  simp [body]

end Token

theorem Failure.index_append (xs rest : List Token) :
    Failure.index (xs ++ rest) rest = xs.length := by
  simp [Failure.index]

namespace Reader

theorem whole_expression_sound {limit : Nat} {tokens : List Token} {tree : Tree}
    (shaped : ∀ token ∈ tokens, token.Shaped) (read : wholeExpression limit tokens = .ok tree) :
    Derives .expression (body tokens) tree ∧ Nested limit (body tokens) := by
  simp only [wholeExpression] at read
  split at read
  · simp at read
  · rename_i value rest inside
    split at read
    · rename_i next
      cases read
      obtain ⟨xs, rfl, derives, nested⟩ := sound_reader limit .expression shaped inside
      rw [body_append (derives_no_end derives), body_of_next next, List.append_nil]
      exact ⟨derives, nested⟩
    · simp at read

theorem whole_expression_complete {limit : Nat} {tokens : List Token} {tree : Tree}
    (nested : Nested limit (body tokens)) (derives : Derives .expression (body tokens) tree) :
    wholeExpression limit tokens = .ok tree := by
  obtain ⟨rest, eq, next⟩ := body_split tokens
  have reads := (reads_of_derives derives limit nested).1 rest (by simp [next, Free])
  have read : (expression limit).read tokens = .ok (tree, rest) := by
    rw [eq]
    exact reads
  simp only [wholeExpression, read, next, if_true]

theorem ended_of_statement {limit : Nat} {tokens : List Token} {tree : Tree}
    (read : statement limit tokens = .ok tree) : Ended tokens := by
  simp only [statement] at read
  split at read
  · simp at read
  · rename_i last
    exact Classical.not_not.mp last

theorem statement_assignment (limit : Nat) {name sign : String} {rest : List Token}
    (ended : Ended (⟨.identifier, name⟩ :: ⟨.equal, sign⟩ :: rest)) :
    statement limit (⟨.identifier, name⟩ :: ⟨.equal, sign⟩ :: rest) =
      (wholeExpression limit rest).map (.assign name) := by
  unfold Ended at ended
  rw [statement, if_neg (not_not_intro ended)]
  cases wholeExpression limit rest <;> rfl

theorem statement_expression (limit : Nat) {tokens : List Token} (ended : Ended tokens)
    (other : ∀ name sign rest, tokens ≠ ⟨.identifier, name⟩ :: ⟨.equal, sign⟩ :: rest) :
    statement limit tokens = wholeExpression limit tokens := by
  unfold Ended at ended
  rw [statement, if_neg (not_not_intro ended)]
  exact other

theorem statement_sound {limit : Nat} {tokens : List Token} {tree : Tree}
    (shaped : ∀ token ∈ tokens, token.Shaped) (read : statement limit tokens = .ok tree) :
    Statement (body tokens) tree ∧ Nested limit (body tokens) := by
  have ended := ended_of_statement read
  by_cases form : ∃ name sign rest, tokens = ⟨.identifier, name⟩ :: ⟨.equal, sign⟩ :: rest
  · obtain ⟨name, sign, rest, rfl⟩ := form
    rw [statement_assignment limit ended] at read
    cases inside : wholeExpression limit rest with
    | error failure => simp [inside, Except.map] at read
    | ok value =>
      simp only [inside, Except.map, Except.ok.injEq] at read
      subst read
      have tail : ∀ token ∈ rest, token.Shaped :=
        (List.forall_mem_cons.mp (List.forall_mem_cons.mp shaped).2).2
      obtain ⟨derives, nested⟩ := whole_expression_sound tail inside
      rw [body_assignment]
      exact ⟨.assignment rfl derives, nested_cons (by simp) (by simp)
        (nested_cons (by simp) (by simp) nested)⟩
  · simp only [not_exists] at form
    rw [statement_expression limit ended form] at read
    obtain ⟨derives, nested⟩ := whole_expression_sound shaped read
    exact ⟨.expression derives, nested⟩

theorem statement_complete {limit : Nat} {tokens : List Token} {tree : Tree}
    (ended : Ended tokens) (nested : Nested limit (body tokens))
    (derived : Statement (body tokens) tree) : statement limit tokens = .ok tree := by
  generalize bodyEq : body tokens = xs at nested derived
  cases derived with
  | expression derives =>
    have other : ∀ name sign rest, tokens ≠ ⟨.identifier, name⟩ :: ⟨.equal, sign⟩ :: rest := by
      rintro name sign rest rfl
      rw [body_assignment] at bodyEq
      have inner := derives_inner derives ⟨.equal, sign⟩ (by simp [← bodyEq])
      exact inner.2 rfl
    rw [statement_expression limit ended other]
    subst bodyEq
    exact whole_expression_complete nested derives
  | @assignment name equal xs value sign derives =>
    obtain ⟨rest, eq, next⟩ := body_split tokens
    obtain ⟨kind, lexeme⟩ := equal
    obtain rfl : kind = .equal := sign
    rw [bodyEq, List.cons_append, List.cons_append] at eq
    subst eq
    rw [body_assignment, List.cons.injEq, List.cons.injEq] at bodyEq
    obtain ⟨_, _, inside⟩ := bodyEq
    have tail := nested_assigned rfl nested
    rw [← inside] at tail derives
    rw [statement_assignment limit ended, whole_expression_complete tail derives]
    rfl

theorem statement_iff {limit : Nat} {tokens : List Token} (ended : Ended tokens)
    (shaped : ∀ token ∈ tokens, token.Shaped) (tree : Tree) :
    statement limit tokens = .ok tree ↔
      Statement (body tokens) tree ∧ Nested limit (body tokens) :=
  ⟨statement_sound shaped, fun ⟨derived, nested⟩ => statement_complete ended nested derived⟩

def ending (done : Tree × List Token) : Outcome :=
  if Kind.next done.2 = .lineEnd then .ok done
  else .error (.rejected (.trailing (Kind.next done.2)) done.2)

def line (limit : Nat) : List Token → Outcome
  | ⟨.identifier, name⟩ :: ⟨.equal, _⟩ :: rest =>
    withTree (.assign name) ((expression limit).read rest >>= ending)
  | tokens => (expression limit).read tokens >>= ending

theorem whole_expression_ending (limit : Nat) (tokens : List Token) :
    wholeExpression limit tokens =
      ((expression limit).read tokens >>= ending).map Prod.fst := by
  simp only [wholeExpression]
  cases (expression limit).read tokens with
  | error failure => rfl
  | ok done =>
    simp only [bind, Except.bind, ending]
    split <;> rfl

theorem statement_line (limit : Nat) {tokens : List Token} (ended : Ended tokens) :
    statement limit tokens = (line limit tokens).map Prod.fst := by
  unfold line
  split
  · rw [statement_assignment limit ended, whole_expression_ending]
    cases (expression limit).read _ >>= ending <;> rfl
  · rename_i other
    rw [statement_expression limit ended other, whole_expression_ending]

theorem next_of_ending {outcome : Outcome} {tree : Tree} {rest : List Token}
    (read : (outcome >>= ending) = .ok (tree, rest)) : Kind.next rest = .lineEnd := by
  cases outcome with
  | error failure => cases read
  | ok done =>
    simp only [bind, Except.bind, ending] at read
    split at read
    · cases read
      assumption
    · cases read

theorem next_of_line {limit : Nat} {tokens rest : List Token} {tree : Tree}
    (read : line limit tokens = .ok (tree, rest)) : Kind.next rest = .lineEnd := by
  unfold line at read
  split at read
  · rename_i inside
    cases outcome : (expression limit).read inside >>= ending with
    | error failure =>
      rw [outcome] at read
      cases read
    | ok done =>
      rw [outcome] at read
      cases read
      exact next_of_ending outcome
  · exact next_of_ending read

theorem cut_ending (room : Nat) (tree : Tree) (rest : List Token) :
    Cut room rest (ending (tree, rest)) (ending (tree, rest)) := by
  unfold ending
  split
  · exact cut_done tree rest
  · exact cut_here _ rest

theorem cut_line {small large : Nat} (le : small ≤ large) (tokens : List Token) :
    Cut small tokens (line small tokens) (line large tokens) := by
  have whole : ∀ tokens, Cut small tokens ((expression small).read tokens >>= ending)
      ((expression large).read tokens >>= ending) := fun tokens =>
    cut_bind (cuts_reader le .expression tokens) fun tree rest _ => cut_ending small tree rest
  unfold line
  split
  · exact cut_cons (by simp) (by simp) (by simp)
      (cut_cons (by simp) (by simp) (by simp) (cut_with_tree _ (whole _)))
  · exact whole tokens

theorem statement_room {limit : Nat} {tokens : List Token} (ended : Ended tokens)
    (nested : Nested limit (body tokens)) : statement limit tokens ≠ .error .tooDeep := by
  rw [statement_line limit ended]
  rcases cut_line (Nat.le_refl limit) tokens with ⟨_, _, _, _, read, _⟩ | ⟨_, _, _, rejected, _⟩ |
    @⟨xs, rest, rfl, noEnd, opens, _, _⟩
  · simp [read, Except.map]
  · simp [rejected, Except.map]
  · rw [body_append noEnd] at nested
    have bound := nested xs (body rest) rfl
    omega

end Reader

theorem body_of_statement {words : List Token} {tree : Tree} (statement : Statement words tree) :
    body (words ++ [lineEnd]) = words := by
  rw [body_append (statement_no_end statement), body_of_next rfl, List.append_nil]

/-- A list of tokens has one tree at most, however deep its brackets are. -/
theorem statement_unique {xs : List Token} {left right : Tree} (first : Statement xs left)
    (second : Statement xs right) : left = right := by
  -- with as much room as there are tokens, the reader finds every tree, and it finds one only
  have whole : ∀ {tree}, Statement xs tree →
      Reader.statement xs.length (xs ++ [lineEnd]) = .ok tree := by
    intro tree derived
    have eq := body_of_statement derived
    refine Reader.statement_complete ended_append ?_ ?_
    · rw [eq]
      exact nested_length xs
    · rwa [eq]
  have same := (whole first).symm.trans (whole second)
  exact Except.ok.inj same

theorem ok_of_toOption {α β : Type} {result : Except α β} {value : β}
    (found : result.toOption = some value) : result = .ok value := by
  cases result with
  | error failure => simp [Except.toOption] at found
  | ok other =>
    cases found
    rfl

/-- A shaped line within the nesting limit has a tree exactly if its body derives it. Otherwise it
is rejected at one of its tokens. -/
theorem of_tokens_iff_derivable (tokens : List Token) (ended : Ended tokens)
    (shaped : ∀ token ∈ tokens, token.Shaped) (nested : Nested Tree.nestingLimit (body tokens)) :
    (∀ tree, Tree.ofTokens tokens = .ok tree ↔ Statement (body tokens) tree) ∧
      ((∀ tree, ¬ Statement (body tokens) tree) →
        ∃ cause rest, Tree.ofTokens tokens = .error (.rejected cause rest)) ∧
      ∀ xs left right, Statement xs left → Statement xs right → left = right := by
  have derived : ∀ tree, Tree.ofTokens tokens = .ok tree ↔ Statement (body tokens) tree := by
    intro tree
    rw [Tree.ofTokens, Reader.statement_iff ended shaped tree]
    exact and_iff_left nested
  refine ⟨derived, ?_, fun xs left right => statement_unique⟩
  intro none
  cases read : Tree.ofTokens tokens with
  | ok tree => exact absurd ((derived tree).mp read) (none tree)
  | error failure =>
    cases failure with
    | rejected cause rest => exact ⟨cause, rest, rfl⟩
    | tooDeep => exact absurd read (Reader.statement_room ended nested)

theorem signed_call_derivable :
    ∃ tokens, Token.ofLine "x = -f(2^y^z) - (a + b)" = .ok tokens ∧ Ended tokens ∧
      (∀ token ∈ tokens, token.Shaped) ∧ Nested Tree.nestingLimit (body tokens) ∧
      Statement (body tokens)
        (.assign "x" (.unary .neg (.binary .sub
          (.call "f" (.binary .pow (.binary .pow (Reader.literal "2") (.name "y")) (.name "z")))
          (.binary .add (.name "a") (.name "b"))))) := by
  obtain ⟨tokens, found, read⟩ : ∃ tokens,
      (Token.ofLine "x = -f(2^y^z) - (a + b)").toOption = some tokens ∧
      (Tree.ofTokens tokens).toOption = some (.assign "x" (.unary .neg (.binary .sub
        (.call "f" (.binary .pow (.binary .pow (Reader.literal "2") (.name "y")) (.name "z")))
        (.binary .add (.name "a") (.name "b"))))) :=
    Option.bind_eq_some_iff.mp (by decide +kernel)
  have scanned := ok_of_toOption found
  have ended := ended_of_line scanned
  have shaped := shaped_of_line scanned
  have nested := (Reader.statement_sound shaped (ok_of_toOption read)).2
  have derived := (of_tokens_iff_derivable tokens ended shaped nested).1
  exact ⟨tokens, scanned, ended, shaped, nested, (derived _).mp (ok_of_toOption read)⟩

end Reckoner

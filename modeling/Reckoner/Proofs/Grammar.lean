import Reckoner.Proofs.Spread
import Reckoner.Proofs.Nesting
import Reckoner.Tree.Reader

/- The grammar of lines, as derivations of trees from lists of tokens:

     statement  := [name '='] expression
     expression := ['+' | '-'] sum           sum   := product (('+' | '-') product)*
     product    := power (('*' | '/') power)*  power := atom ('^' atom)*
     atom       := number | name | letters '(' expression ')' | '(' expression ')'

   Chains are derived from the left: what stands before the last operator of a chain is a chain of
   the same phrase again. -/
namespace Reckoner

def OnlyLetters (lexeme : String) : Prop :=
  lexeme ≠ "" ∧ ∀ c ∈ lexeme.toList, c.isAlpha

namespace Grammar

inductive Phrase
  | expression
  | sum
  | product
  | power
  | atom
  deriving DecidableEq, Repr

/-- How much a phrase holds: phrases of lower rank are phrases of every higher one. -/
def Phrase.rank : Phrase → Nat
  | .atom => 0
  | .power => 1
  | .product => 2
  | .sum => 3
  | .expression => 4

inductive Operands : Phrase → Phrase → Prop where
  | sum : Operands .sum .product
  | product : Operands .product .power
  | power : Operands .power .atom

inductive Joint : Phrase → Kind → Op → Prop where
  | plus : Joint .sum .plus .add
  | minus : Joint .sum .minus .sub
  | star : Joint .product .star .mul
  | slash : Joint .product .slash .div
  | caret : Joint .power .caret .pow

inductive Sign : Kind → Op → Prop where
  | plus : Sign .plus .pos
  | minus : Sign .minus .neg

inductive Derives : Phrase → List Token → Tree → Prop where
  | unsigned {xs tree} (sum : Derives .sum xs tree) : Derives .expression xs tree
  | signed {token xs op tree} (sign : Sign token.kind op) (sum : Derives .sum xs tree) :
      Derives .expression (token :: xs) (.unary op tree)
  | single {chain phrase xs tree} (operands : Operands chain phrase)
      (first : Derives phrase xs tree) : Derives chain xs tree
  | joined {chain phrase token xs ys op left right} (operands : Operands chain phrase)
      (before : Derives chain xs left) (joint : Joint chain token.kind op)
      (last : Derives phrase ys right) : Derives chain (xs ++ token :: ys) (.binary op left right)
  | number {lexeme} : Derives .atom [⟨.number, lexeme⟩] (Reader.literal lexeme)
  | name {lexeme} : Derives .atom [⟨.identifier, lexeme⟩] (.name lexeme)
  | call {lexeme opening closing xs tree} (letters : OnlyLetters lexeme)
      (first : opening.kind = .bracketOpen) (last : closing.kind = .bracketClose)
      (argument : Derives .expression xs tree) :
      Derives .atom (⟨.identifier, lexeme⟩ :: opening :: (xs ++ [closing])) (.call lexeme tree)
  | bracketed {opening closing xs tree} (first : opening.kind = .bracketOpen)
      (last : closing.kind = .bracketClose) (inside : Derives .expression xs tree) :
      Derives .atom (opening :: (xs ++ [closing])) tree

inductive Statement : List Token → Tree → Prop where
  | expression {xs tree} (value : Derives .expression xs tree) : Statement xs tree
  | assignment {lexeme equal xs tree} (sign : equal.kind = .equal)
      (value : Derives .expression xs tree) :
      Statement (⟨.identifier, lexeme⟩ :: equal :: xs) (.assign lexeme tree)

def Inner (kind : Kind) : Prop := kind ≠ .lineEnd ∧ kind ≠ .equal

theorem sign_kind {kind : Kind} {op : Op} (sign : Sign kind op) :
    Inner kind ∧ kind ≠ .bracketOpen ∧ kind ≠ .bracketClose := by
  cases sign <;> simp [Inner]

theorem joint_kind {chain : Phrase} {kind : Kind} {op : Op} (joint : Joint chain kind op) :
    Inner kind ∧ kind ≠ .bracketOpen ∧ kind ≠ .bracketClose := by
  cases joint <;> simp [Inner]

theorem joint_level {chain : Phrase} {kind : Kind} {op : Op} (joint : Joint chain kind op) :
    kind.binary? = some op ∧ ∃ own, op.level? = some own ∧ chain.rank + own = 3 := by
  cases joint with
  | plus => exact ⟨rfl, 0, rfl, rfl⟩
  | minus => exact ⟨rfl, 0, rfl, rfl⟩
  | star => exact ⟨rfl, 1, rfl, rfl⟩
  | slash => exact ⟨rfl, 1, rfl, rfl⟩
  | caret => exact ⟨rfl, 2, rfl, rfl⟩

theorem sign_level {kind : Kind} {op : Op} (sign : Sign kind op) :
    ∃ joint, kind.binary? = some joint ∧ joint.level? = some 0 := by
  cases sign with
  | plus => exact ⟨.add, rfl, rfl⟩
  | minus => exact ⟨.sub, rfl, rfl⟩

theorem sign_op {kind : Kind} {op : Op} (sign : Sign kind op) : op = .neg ∨ op = .pos := by
  cases sign with
  | plus => exact .inr rfl
  | minus => exact .inl rfl

theorem sign_not_word {token : Token} {op : Op} (sign : Sign token.kind op) : ¬ token.IsWord := by
  intro word
  unfold Token.IsWord at word
  generalize token.kind = kind at sign word
  cases sign <;> simp at word

theorem joint_not_word {chain : Phrase} {token : Token} {op : Op}
    (joint : Joint chain token.kind op) : ¬ token.IsWord := by
  intro word
  unfold Token.IsWord at word
  generalize token.kind = kind at joint word
  cases joint <;> simp at word

theorem inner_enclosed {opening closing : Token} {xs : List Token}
    (first : opening.kind = .bracketOpen) (last : closing.kind = .bracketClose)
    (inside : ∀ token ∈ xs, Inner token.kind) :
    ∀ token ∈ opening :: (xs ++ [closing]), Inner token.kind := by
  intro token member
  simp only [List.mem_cons, List.mem_append, List.not_mem_nil, or_false] at member
  rcases member with rfl | member | rfl
  · simp [Inner, first]
  · exact inside token member
  · simp [Inner, last]

theorem derives_inner {phrase : Phrase} {xs : List Token} {tree : Tree}
    (derives : Derives phrase xs tree) : ∀ token ∈ xs, Inner token.kind := by
  induction derives with
  | unsigned _ ih => exact ih
  | signed sign _ ih => exact List.forall_mem_cons.mpr ⟨(sign_kind sign).1, ih⟩
  | single _ _ ih => exact ih
  | @joined _ _ token _ ys _ _ _ _ _ joint _ left right =>
    have later : ∀ other ∈ token :: ys, Inner other.kind :=
      List.forall_mem_cons.mpr ⟨(joint_kind joint).1, right⟩
    exact List.forall_mem_append.mpr ⟨left, later⟩
  | number => simp [Inner]
  | name => simp [Inner]
  | call _ first last _ ih =>
    exact List.forall_mem_cons.mpr ⟨by simp [Inner], inner_enclosed first last ih⟩
  | bracketed first last _ ih => exact inner_enclosed first last ih

theorem derives_no_end {phrase : Phrase} {xs : List Token} {tree : Tree}
    (derives : Derives phrase xs tree) : ∀ token ∈ xs, token.kind ≠ .lineEnd :=
  fun token member => (derives_inner derives token member).1

theorem statement_no_end {xs : List Token} {tree : Tree} (statement : Statement xs tree) :
    ∀ token ∈ xs, token.kind ≠ .lineEnd := by
  cases statement with
  | expression derives => exact derives_no_end derives
  | @assignment _ equal xs _ sign derives =>
    have after : ∀ token ∈ equal :: xs, token.kind ≠ .lineEnd :=
      List.forall_mem_cons.mpr ⟨by simp [sign], derives_no_end derives⟩
    exact List.forall_mem_cons.mpr ⟨by simp, after⟩

theorem derives_balanced {phrase : Phrase} {xs : List Token} {tree : Tree}
    (derives : Derives phrase xs tree) : Token.Balanced xs := by
  induction derives with
  | unsigned _ ih => exact ih
  | signed sign _ ih =>
    have kind := sign_kind sign
    exact Token.balanced_cons kind.2.1 kind.2.2 ih
  | single _ _ ih => exact ih
  | joined _ _ joint _ left right =>
    have kind := joint_kind joint
    exact Token.balanced_append left (Token.balanced_cons kind.2.1 kind.2.2 right)
  | number => rfl
  | name => rfl
  | call _ first last _ ih =>
    exact Token.balanced_cons (by simp) (by simp) (Token.balanced_enclosed first last ih)
  | bracketed first last _ ih => exact Token.balanced_enclosed first last ih

theorem derives_not_assign {phrase : Phrase} {xs : List Token} {tree : Tree}
    (derives : Derives phrase xs tree) (name : String) (value : Tree) :
    tree ≠ .assign name value := by
  induction derives with
  | unsigned _ ih => exact ih
  | single _ _ ih => exact ih
  | bracketed _ _ _ ih => exact ih
  | _ => simp [Reader.literal]

theorem operands_rank {chain phrase : Phrase} (operands : Operands chain phrase) :
    chain.rank = phrase.rank + 1 := by
  cases operands <;> rfl

end Grammar
end Reckoner

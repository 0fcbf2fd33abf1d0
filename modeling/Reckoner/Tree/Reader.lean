import Reckoner.Text.Letter
import Reckoner.Token
import Reckoner.Tree

/- Readers take a tree from the front of a list of tokens and leave the tokens after it. They are
   put together from the reader of the things in brackets, as the grammar is:

     expression := ['+' | '-'] sum        sum     := product (('+' | '-') product)*
     product    := power (('*' | '/') power)*     power := atom ('^' atom)*
     atom       := number | name | function '(' expression ')' | '(' expression ')'

   Chains of one level group to the left at every level. -/
namespace Reckoner

inductive Cause
  | unended
  | operandMissing
  | operandExpected (found : Kind)
  | bracketEmpty
  | bracketUnclosed
  | trailing (found : Kind)
  deriving DecidableEq, Repr

/-- A line is rejected at its first wrong token, which is the first of `rest`; or before any token
is wrong, more brackets are open than the limit allows, and the last of them is not empty. -/
inductive Failure
  | rejected (cause : Cause) (rest : List Token)
  | tooDeep
  deriving DecidableEq, Repr

namespace Kind

def binary? : Kind → Option Op
  | plus => some .add
  | minus => some .sub
  | star => some .mul
  | slash => some .div
  | caret => some .pow
  | _ => none

def sign? : Kind → Option Op
  | plus => some .pos
  | minus => some .neg
  | _ => none

def joining? (kind : Kind) (level : List Op) : Option Op :=
  kind.binary?.filter (level.contains ·)

def next : List Token → Kind
  | [] => lineEnd
  | token :: _ => token.kind

end Kind

/-- Only letters make the name of a function, so `f1(2)` is no call. -/
def Token.isFunctionName (lexeme : String) : Bool :=
  lexeme ≠ "" && lexeme.toList.all Text.letters.contains

structure Reader where
  read : List Token → Except Failure (Tree × List Token)
  consumes : ∀ {tokens tree rest}, read tokens = .ok (tree, rest) → rest.length < tokens.length

namespace Reader

def tooDeep : Reader where
  read _ := .error .tooDeep
  consumes := by simp

def enclosed (inner : Reader) : Reader where
  read tokens :=
    if Kind.next tokens = .bracketClose then .error (.rejected .bracketEmpty tokens)
    else
      match inner.read tokens with
      | .error failure => .error failure
      | .ok (tree, rest) =>
        match rest with
        | ⟨.bracketClose, _⟩ :: after => .ok (tree, after)
        | _ => .error (.rejected .bracketUnclosed rest)
  consumes := by
    intro tokens tree rest done
    split at done
    · simp at done
    · split at done
      · simp at done
      · rename_i read
        have shorter := inner.consumes read
        split at done
        · simp only [Except.ok.injEq, Prod.mk.injEq] at done
          obtain ⟨_, rfl⟩ := done
          simp only [List.length_cons] at shorter
          omega
        · simp at done

def literal (lexeme : String) : Tree :=
  .number (Decimal.ofChars lexeme.toList).toFloat

def atom (bracket : Reader) : Reader where
  read
    | [] => .error (.rejected .operandMissing [])
    | ⟨.number, lexeme⟩ :: rest => .ok (literal lexeme, rest)
    | ⟨.identifier, lexeme⟩ :: rest =>
      match rest with
      | ⟨.bracketOpen, _⟩ :: inside =>
        if Token.isFunctionName lexeme then
          match bracket.read inside with
          | .error failure => .error failure
          | .ok (argument, after) => .ok (.call lexeme argument, after)
        else .ok (.name lexeme, rest)
      | _ => .ok (.name lexeme, rest)
    | ⟨.bracketOpen, _⟩ :: inside => bracket.read inside
    | ⟨.lineEnd, lexeme⟩ :: rest =>
      .error (.rejected .operandMissing (⟨.lineEnd, lexeme⟩ :: rest))
    | token :: rest => .error (.rejected (.operandExpected token.kind) (token :: rest))
  consumes := by
    intro tokens tree rest done
    split at done
    · simp at done
    · simp only [Except.ok.injEq, Prod.mk.injEq] at done
      obtain ⟨_, rfl⟩ := done
      simp
    · split at done
      · split at done
        · split at done
          · simp at done
          · rename_i read
            have shorter := bracket.consumes read
            simp only [Except.ok.injEq, Prod.mk.injEq] at done
            obtain ⟨_, rfl⟩ := done
            simp only [List.length_cons]
            omega
        · simp only [Except.ok.injEq, Prod.mk.injEq] at done
          obtain ⟨_, rfl⟩ := done
          simp
      · simp only [Except.ok.injEq, Prod.mk.injEq] at done
        obtain ⟨_, rfl⟩ := done
        simp
    · have shorter := bracket.consumes done
      simp only [List.length_cons]
      omega
    · simp at done
    · simp at done

def chainFrom (level : List Op) (operand : Reader) (left : Tree) (tokens : List Token) :
    Except Failure (Tree × List Token) :=
  match tokens with
  | [] => .ok (left, [])
  | token :: rest =>
    match token.kind.joining? level with
    | none => .ok (left, token :: rest)
    | some op =>
      match _read : operand.read rest with
      | .error failure => .error failure
      | .ok (right, after) => chainFrom level operand (.binary op left right) after
termination_by tokens.length
decreasing_by
  have shorter := operand.consumes _read
  simp only [List.length_cons]
  omega

theorem chain_from_consumes (level : List Op) (operand : Reader) (left : Tree)
    (tokens : List Token) {tree : Tree} {rest : List Token}
    (done : chainFrom level operand left tokens = .ok (tree, rest)) :
    rest.length ≤ tokens.length := by
  fun_induction chainFrom level operand left tokens with
  | case1 => simp_all
  | case2 => simp_all
  | case3 => simp_all
  | case4 left token tokens op joins right after read ih =>
    have shorter := operand.consumes read
    have later := ih done
    simp only [List.length_cons]
    omega

def chain (level : List Op) (operand : Reader) : Reader where
  read tokens :=
    match operand.read tokens with
    | .error failure => .error failure
    | .ok (first, rest) => chainFrom level operand first rest
  consumes := by
    intro tokens tree rest done
    split at done
    · simp at done
    · rename_i read
      have shorter := operand.consumes read
      have later := chain_from_consumes _ _ _ _ done
      omega

def operand (levels : List (List Op)) (bracket : Reader) : Reader :=
  levels.foldr chain (atom bracket)

def signed (sum : Reader) : Reader where
  read tokens :=
    match (Kind.next tokens).sign? with
    | none => sum.read tokens
    | some op =>
      match sum.read tokens.tail with
      | .error failure => .error failure
      | .ok (tree, rest) => .ok (.unary op tree, rest)
  consumes := by
    intro tokens tree rest done
    split at done
    · exact sum.consumes done
    · split at done
      · simp at done
      · rename_i read
        have shorter := sum.consumes read
        simp only [Except.ok.injEq, Prod.mk.injEq] at done
        obtain ⟨_, rfl⟩ := done
        simp only [List.length_tail] at shorter
        omega

/-- Expressions with at most `depth` brackets open within each other. One bracket too many is still
told to be empty, since its inside is not read for that. -/
def expression : (depth : Nat) → Reader
  | 0 => signed (operand Op.levels (enclosed tooDeep))
  | depth + 1 => signed (operand Op.levels (enclosed (expression depth)))

end Reader
end Reckoner

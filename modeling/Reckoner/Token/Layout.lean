import Reckoner.Text.Blank
import Reckoner.Token

/- Layout: tokens written on one line again, one space apart, less the spaces that a reader of
   formulas does not expect. The rules speak of characters, so lexemes may hold anything. -/
namespace Reckoner.Layout
open Text

/-- The neighbours between which blanks are dropped: inside brackets, and between a name and the
bracket of its argument. -/
def tight (left right : Option Char) : Bool :=
  left = some '(' || right = some ')' || (left.any Char.isAlpha && right = some '(')

/-- Drops the runs of blanks between tight neighbours. `left` is the last character that is no
blank and `held` the run of blanks after it, last first. -/
def tighten (left : Option Char) (held : List Char) : List Char → List Char
  | [] => if tight left none then [] else held.reverse
  | c :: cs =>
    if isBlank c then tighten left (c :: held) cs
    else
      (if tight left (some c) then [] else held.reverse) ++ c :: tighten (some c) [] cs

/-- Drops the blanks around a caret that has some on both sides. Blanks after one caret do not
count again for the next. `held` is the run of blanks not written yet, last first, and
`passing` says that a caret stands before it. -/
def joinCarets (passing : Bool) (held : List Char) : List Char → List Char
  | [] => if passing then [] else held.reverse
  | c :: cs =>
    if isBlank c then joinCarets passing (c :: held) cs
    else if passing then c :: joinCarets false [] cs
    else if c = '^' ∧ held ≠ [] ∧ cs.head?.any isBlank then c :: joinCarets true [] cs
    else held.reverse ++ c :: joinCarets false [] cs

def spaced (tokens : List Token) : List Char :=
  List.intercalate [' ']
    ((tokens.filter (·.kind ≠ .lineEnd)).map (·.lexeme.toList))

end Layout

def Token.layout (tokens : List Token) : String :=
  String.ofList (Layout.joinCarets false [] (Layout.tighten none [] (Layout.spaced tokens)))

end Reckoner

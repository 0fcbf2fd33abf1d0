import Reckoner.Text.Digit

/- The words of a command line: flags in a short and a long form, and operands. A long form may be
   cut short as long as it is clear which is meant. -/
namespace Reckoner

inductive Flag
  | help
  | quiet
  | debug
  | logfile
  | verbose
  deriving DecidableEq, Repr

namespace Flag

def all : List Flag := [help, quiet, debug, logfile, verbose]

def letter : Flag → Char
  | help => 'h'
  | quiet => 'q'
  | debug => 'd'
  | logfile => 'L'
  | verbose => 'v'

def word : Flag → String
  | help => "help"
  | quiet => "quiet"
  | debug => "debug"
  | logfile => "logfile"
  | verbose => "verbose-errors"

def ofLetter? (c : Char) : Option Flag :=
  all.find? (·.letter = c)

def withStem (stem : List Char) : List Flag :=
  all.filter fun flag => stem.isPrefixOf flag.word.toList

end Flag

/-- The first `--` separates: all words after it are operands. An option may have text attached:
what follows the letter of a short one, or the equals sign of a long one. -/
inductive Word
  | operand (text : String)
  | separator
  | option (flag : Flag) (isLong : Bool) (attached : Option (List Char))
  | unknown
  deriving DecidableEq, Repr

namespace Word

/-- A minus and digits, which may have a point before the last of them. One line break at the end
does no harm. -/
def isNegativeNumber (cs : List Char) : Bool :=
  let digits := cs.drop 1
  let digits := if digits.getLast? = some '\n' then digits.dropLast else digits
  let fraction := (digits.dropWhile Text.isDigit).drop 1
  let isWhole := digits ≠ [] && digits.all Text.isDigit
  let isFraction := (digits.dropWhile Text.isDigit).head? = some '.' && fraction ≠ []
    && fraction.all Text.isDigit
  cs.head? = some '-' && (isWhole || isFraction)

/-- A word that starts with a dash and names no option: a negative number or text with a space in it
is an operand all the same. -/
def ofOther (text : String) : Word :=
  if isNegativeNumber text.toList || text.toList.contains ' ' then operand text else unknown

def ofText? (text : String) : Option Word :=
  match text.toList with
  | '-' :: '-' :: cs =>
    let stem := cs.takeWhile (· ≠ '=')
    let attached := (cs.dropWhile (· ≠ '=')).tail?
    match Flag.withStem stem with
    | [] => some (ofOther text)
    | [flag] => some (option flag true attached)
    | _ => none
  | '-' :: c :: cs =>
    match Flag.ofLetter? c with
    | none => some (ofOther text)
    | some flag => some (option flag false (if cs = [] then none else some cs))
  | _ => some (operand text)

def ofTexts? : List String → Option (List Word)
  | [] => some []
  | text :: texts =>
    if text = "--" then some (separator :: texts.map operand)
    else
      match ofText? text with
      | none => none
      | some word => (ofTexts? texts).map (word :: ·)

end Word
end Reckoner

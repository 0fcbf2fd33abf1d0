import Reckoner.Text.Blank
import Reckoner.Text.Quoted
import Reckoner.Token

/- Scanning: a line is read as its longest lexemes from left to right, blanks between them are
   passed over. Digits and letters of lexemes are ASCII. -/
namespace Reckoner
open Text

structure Lexeme where
  kind : Kind
  text : List Char
  rest : List Char
  deriving DecidableEq, Repr

namespace Lexeme

def number (cs : List Char) : Lexeme :=
  let whole := cs.takeWhile Char.isDigit
  match cs.dropWhile Char.isDigit with
  | '.' :: c :: rest =>
    if c.isDigit then
      ⟨.number, whole ++ '.' :: (c :: rest).takeWhile Char.isDigit,
        (c :: rest).dropWhile Char.isDigit⟩
    else ⟨.number, whole, '.' :: c :: rest⟩
  | rest => ⟨.number, whole, rest⟩

def identifier (cs : List Char) : Lexeme :=
  let letters := cs.takeWhile Char.isAlpha
  let rest := cs.dropWhile Char.isAlpha
  ⟨.identifier, letters ++ rest.takeWhile Char.isDigit, rest.dropWhile Char.isDigit⟩

def sign? : Char → Option Kind
  | '+' => some .plus
  | '-' => some .minus
  | '*' => some .star
  | '/' => some .slash
  | '^' => some .caret
  | '=' => some .equal
  | '(' => some .bracketOpen
  | ')' => some .bracketClose
  | _ => none

def longest? : List Char → Option Lexeme
  | [] => none
  | c :: cs =>
    if c.isDigit then some (number (c :: cs))
    else if c.isAlpha then some (identifier (c :: cs))
    else (sign? c).map fun kind => ⟨kind, [c], cs⟩

def token (lexeme : Lexeme) : Token :=
  ⟨lexeme.kind, String.ofList lexeme.text⟩

theorem number_append (cs : List Char) : (number cs).text ++ (number cs).rest = cs := by
  have whole := cs.takeWhile_append_dropWhile (p := Char.isDigit)
  simp only [number]
  split
  · rename_i c rest tail
    split
    · rw [List.append_assoc, List.cons_append, List.takeWhile_append_dropWhile, ← tail, whole]
    · rw [← tail, whole]
  · exact whole

theorem identifier_append (cs : List Char) :
    (identifier cs).text ++ (identifier cs).rest = cs := by
  simp [identifier]

theorem longest_append {cs : List Char} {lexeme : Lexeme} (found : longest? cs = some lexeme) :
    lexeme.text ++ lexeme.rest = cs := by
  cases cs with
  | nil => simp [longest?] at found
  | cons c cs =>
    simp only [longest?] at found
    split at found
    · cases found; exact number_append _
    · split at found
      · cases found; exact identifier_append _
      · obtain ⟨kind, _, rfl⟩ := Option.map_eq_some_iff.mp found
        rfl

theorem longest_text_ne_nil {cs : List Char} {lexeme : Lexeme}
    (found : longest? cs = some lexeme) : lexeme.text ≠ [] := by
  cases cs with
  | nil => simp [longest?] at found
  | cons c cs =>
    simp only [longest?] at found
    split at found
    · rename_i digit
      cases found
      simp only [number]
      split <;> (try split) <;> simp [digit]
    · split at found
      · rename_i letter
        cases found
        simp [identifier, letter]
      · obtain ⟨kind, _, rfl⟩ := Option.map_eq_some_iff.mp found
        simp

theorem longest_rest_shorter {cs : List Char} {lexeme : Lexeme}
    (found : longest? cs = some lexeme) : lexeme.rest.length < cs.length := by
  have whole := congrArg List.length (longest_append found)
  have text := List.length_pos_iff.mpr (longest_text_ne_nil found)
  simp only [List.length_append] at whole
  omega

end Lexeme

structure Unexpected where
  char : Char
  rest : List Char
  deriving DecidableEq, Repr

namespace Token

def scan (cs : List Char) : Except Unexpected (List Token) :=
  match cs with
  | [] => .ok [lineEnd]
  | c :: rest =>
    if isBlank c then scan rest
    else
      match _found : Lexeme.longest? (c :: rest) with
      | none => .error ⟨c, rest⟩
      | some lexeme => (scan lexeme.rest).map (lexeme.token :: ·)
termination_by cs.length
decreasing_by
  · simp
  · exact Lexeme.longest_rest_shorter _found

def ofLine (line : String) : Except Unexpected (List Token) :=
  scan line.toList

end Token

namespace Unexpected

def index (fault : Unexpected) (line : String) : Nat :=
  line.length - (fault.rest.length + 1)

def summary (fault : Unexpected) : String :=
  "Unexpected character: " ++ quoted (String.singleton fault.char)

def margin : Nat := 10

def message (fault : Unexpected) (line : String) : String :=
  let index := fault.index line
  let start := index - margin
  let stop := min line.length (index + margin)
  let before := if 0 < start then "..." else ""
  let after := if stop < line.length then "..." else ""
  let shown := String.ofList ((line.toList.take stop).drop start)
  let column := before.length + (index - start)
  "[Tokenizer error] " ++ fault.summary ++ "\n"
    ++ before ++ shown ++ after ++ "\n"
    ++ String.ofList (List.replicate column ' ') ++ "^"

end Unexpected
end Reckoner

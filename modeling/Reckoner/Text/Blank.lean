import Reckoner.Text.CharSet

/- Blanks: the characters that separate tokens and are trimmed from the ends of a line. -/
namespace Reckoner.Text

def blanks : CharSet where
  ranges :=
    [(0x09, 0x0D), (0x1C, 0x20), (0x85, 0x85), (0xA0, 0xA0), (0x1680, 0x1680), (0x2000, 0x200A),
     (0x2028, 0x2029), (0x202F, 0x202F), (0x205F, 0x205F), (0x3000, 0x3000)]

def isBlank (c : Char) : Bool :=
  blanks.contains c

def trim (text : String) : String :=
  let left := text.toList.dropWhile isBlank
  String.ofList (left.reverse.dropWhile isBlank).reverse

end Reckoner.Text

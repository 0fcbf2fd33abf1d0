import Reckoner.Number.Shortest

/- The text of a double: the shortest digits, written out with a point between 0.0001 and
   10000000000000000.0 and with a power of ten beyond. -/
namespace Reckoner.Number
open Binary64

def zeros (count : Nat) : List Char :=
  List.replicate count '0'

def positional (digits : List Char) (point : Int) : List Char :=
  if point ≤ 0 then '0' :: '.' :: zeros (-point).toNat ++ digits
  else if digits.length ≤ point.toNat then
    digits ++ zeros (point.toNat - digits.length) ++ ['.', '0']
  else digits.take point.toNat ++ '.' :: digits.drop point.toNat

/-- One digit before the point, which is left out if no digit follows; the power of ten has a sign
and two digits at least. -/
def scientific (digits : List Char) (exponent : Int) : List Char :=
  let power := Nat.toDigits 10 exponent.natAbs
  digits.take 1 ++ (if digits.length ≤ 1 then [] else '.' :: digits.drop 1)
    ++ 'e' :: (if exponent < 0 then '-' else '+') :: zeros (2 - power.length) ++ power

def isPositional (exponent : Int) : Bool :=
  -4 ≤ exponent && exponent < 16

def decimalText (d : Decimal) : List Char :=
  let digits := Nat.toDigits 10 d.digits
  let point := digits.length + d.exponent
  let significant := (digits.reverse.dropWhile (· = '0')).reverse
  if isPositional (point - 1) then positional significant point
  else scientific significant (point - 1)

def patternText (p : Nat) : List Char :=
  if infinitePattern < p then ['n', 'a', 'n']
  else if p = infinitePattern then ['i', 'n', 'f']
  else if p = 0 then ['0', '.', '0']
  else decimalText (Decimal.shortest p)

def text (x : Float) : String :=
  let p := pattern x
  String.ofList ((if isNegative x && p ≤ infinitePattern then ['-'] else []) ++ patternText p)

end Reckoner.Number

import Reckoner.Number.Binary64

/- Decimal numbers and the doubles nearest to them. -/
namespace Reckoner

/-- The number `digits * 10 ^ exponent`. -/
structure Decimal where
  digits : Nat
  exponent : Int
  deriving DecidableEq, Repr

namespace Decimal

def digitsValue (cs : List Char) : Nat :=
  cs.foldl (fun n c => 10 * n + (c.toNat - '0'.toNat)) 0

def ofChars (cs : List Char) : Decimal :=
  let whole := cs.takeWhile (· ≠ '.')
  let fraction := (cs.dropWhile (· ≠ '.')).drop 1
  ⟨digitsValue (whole ++ fraction), -fraction.length⟩

def toFloat (d : Decimal) : Float :=
  Binary64.ofPattern
    (Binary64.nearest (d.digits * Nat.pow 10 d.exponent.toNat) (Nat.pow 10 (-d.exponent).toNat))

end Decimal
end Reckoner

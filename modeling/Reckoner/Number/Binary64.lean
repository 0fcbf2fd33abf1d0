/- Doubles as exact numbers. A pattern is the bits of a double without the sign; patterns stand in
   the order of the magnitudes, and the pattern after the largest finite one is infinity. -/
namespace Reckoner.Binary64

def binade : Nat := Nat.pow 2 52

def signBit : Nat := Nat.pow 2 63

/-- Magnitudes are counted in multiples of 2^-1074, the smallest positive double. This many of them
make one. -/
def one : Nat := Nat.pow 2 1074

def infinitePattern : Nat := 0x7FF0000000000000

def pattern (x : Float) : Nat :=
  x.toBits.toNat % signBit

def isNegative (x : Float) : Bool :=
  signBit ≤ x.toBits.toNat

def ofPattern (p : Nat) : Float :=
  Float.ofBits (UInt64.ofNat p)

def infinity : Float := ofPattern infinitePattern

def nan : Float := ofPattern 0x7FF8000000000000

/-- The magnitude of a pattern in units. The infinite pattern counts as 2^1024, the next step after
the largest double. -/
def units (p : Nat) : Nat :=
  if p < binade then p else (binade + p % binade) * Nat.pow 2 (p / binade - 1)

def roundDiv (num den : Nat) : Nat :=
  let quotient := num / den
  let rest := num % den
  if den < 2 * rest ∨ (den = 2 * rest ∧ quotient % 2 = 1) then quotient + 1 else quotient

/-- The pattern nearest to `num / den`, of two the even one. Counted in units, a number of more
than 53 bits keeps the first 53; rounding may carry into the next power of two, and the patterns
carry on in step. -/
def nearest (num den : Nat) : Nat :=
  let scaled := num * one
  let dropped := (scaled / den).log2 - 52
  min (dropped * binade + roundDiv scaled (den * Nat.pow 2 dropped)) infinitePattern

def isInteger (x : Float) : Bool :=
  pattern x < infinitePattern && units (pattern x) % one = 0

/-- What is left of a finite double when another one, not zero, is taken away from it as often as
it goes. The sign stays. -/
def remainder (x y : Float) : Float :=
  let left := ofPattern (nearest (units (pattern x) % units (pattern y)) one)
  if isNegative x then -left else left

def isOddInteger (x : Float) : Bool :=
  x.isFinite && isInteger x && remainder x 2.0 != 0.0

end Reckoner.Binary64

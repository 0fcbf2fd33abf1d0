import Reckoner.Number.Binary64

/- Arithmetic on doubles that never fails: where a quotient or a power has no finite value, the
   answer is an infinity of the right sign or NaN. -/
namespace Reckoner.Arithmetic
open Binary64

def quotient (a b : Float) (_divisor : b != 0.0) : Float :=
  a / b

def copySign (size sign : Float) : Float :=
  if isNegative sign then -size.abs else size.abs

def divide (a b : Float) : Float :=
  if divisor : b != 0.0 then quotient a b divisor
  else if a == 0.0 || a.isNaN then nan
  else copySign infinity a * copySign 1.0 b

def signedInfinity (negative : Bool) : Float :=
  if negative then -infinity else infinity

inductive PowerFault
  | overflow
  | domain
  deriving DecidableEq, Repr

/-- Powers, with `pow` for the values. A power of zero below zero and a fractional power of a
negative number are outside of the domain. -/
def checkedPower (pow : Float → Float → Float) (a b : Float) : Except PowerFault Float :=
  if a.isFinite && b.isFinite then
    if (a == 0.0 && b < 0.0) || (a < 0.0 && !isInteger b) then .error .domain
    else if a != 0.0 && (pow a b).isInf then .error .overflow
    else .ok (pow a b)
  else .ok (pow a b)

/-- Powers that never fail. They are NaN where the exponent is NaN, where a base of magnitude one
meets an infinite exponent, and where a negative base meets a fraction. A power of zero below zero
and a power too large are infinite, negative only for odd exponents. -/
def powerWith (pow : Float → Float → Float) (a b : Float) : Float :=
  if b.isNaN || (b.isInf && a.abs == 1.0) then nan
  else
    match checkedPower pow a b with
    | .ok result => result
    | .error .overflow => signedInfinity (a < 0.0 && isOddInteger b)
    | .error .domain =>
      if a == 0.0 then signedInfinity (isNegative a && isOddInteger b) else nan

def power (a b : Float) : Float :=
  powerWith Float.pow a b

end Reckoner.Arithmetic

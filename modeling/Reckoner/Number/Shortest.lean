import Reckoner.Number.Decimal

/- The shortest decimal that reads back as a given double, and of those the nearest to it. -/
namespace Reckoner.Decimal
open Binary64

/-- Decimal places below which no digit is tried: 17 digits of the smallest double end there. -/
def places : Nat := 341

def scale : Nat := Nat.pow 10 places

/-- Whether `scaled / scale` is nearer to the pattern than to its neighbours. The midpoints go to
the even pattern. -/
def readsBack (p scaled : Nat) : Bool :=
  let middle := scaled * (2 * one)
  let low := (units (p - 1) + units p) * scale
  let high := (units p + units (p + 1)) * scale
  if p % 2 = 0 then low ≤ middle && middle ≤ high else low < middle && middle < high

/-- A decimal of `count` digits that reads back as the pattern, the nearest one first. If any does,
so does one of the two neighbours of the value among them. -/
def withDigits? (p count : Nat) : Option Decimal :=
  let scaled := units p * scale
  let length := (Nat.toDigits 10 (scaled / one)).length
  let step := Nat.pow 10 (length - count)
  let below := scaled / (one * step)
  let digits? := [roundDiv scaled (one * step), below, below + 1].find? fun digits =>
    readsBack p (digits * step)
  digits?.map fun digits => ⟨digits, (length - count : Nat) - (places : Int)⟩

def exact (p : Nat) : Decimal :=
  ⟨units p * Nat.pow 5 1074, -1074⟩

/-- Seventeen digits always suffice. -/
def shortest (p : Nat) : Decimal :=
  ((List.range' 1 17).findSome? (withDigits? p)).getD (exact p)

end Reckoner.Decimal

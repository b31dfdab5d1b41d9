import ObjectQuery.Number.Power
import ObjectQuery.Text.Digits

/-!
Contract: numbers in JSON documents.

A number is kept as it was written. As a floating-point number it goes through a significand of at
most 64 bits: digits that no longer fit are left out, and the significand is then multiplied or
divided by one power of ten. The result is near the written number, though not always the nearest.

Owns:
- `JsonNumber` and its reading as an integer and as a 64-bit floating-point number;
- `DecimalFloat`, a significand with a power of ten.

Does not own: the grammar of numbers.
-/

namespace ObjectQuery

/-- A number as it was written: the digits in front of the point and behind it, and the power of
ten. Without places and without a power it is an integer. -/
structure JsonNumber where
  negative : Bool
  whole : List Char
  places : List Char
  power : Option Int
deriving DecidableEq, Repr

/-- `significand * 10 ^ exponent`. -/
structure DecimalFloat where
  significand : Nat
  exponent : Int
deriving DecidableEq, Repr

namespace DecimalFloat

/-- Takes in the digits in front of the point while the significand fits in 64 bits. From the first
one that does not fit, each only raises the exponent. -/
def takeWhole : List Char → DecimalFloat → DecimalFloat
  | [], x => x
  | c :: rest, x =>
    let next := x.significand * 10 + Text.digitValue c
    if next < 2 ^ 64 then takeWhole rest { x with significand := next }
    else { x with exponent := x.exponent + rest.length + 1 }

/-- Takes in the digits behind the point up to the first one that does not fit. -/
def takePlaces : List Char → DecimalFloat → DecimalFloat
  | [], x => x
  | c :: rest, x =>
    let next := x.significand * 10 + Text.digitValue c
    if next < 2 ^ 64 then takePlaces rest ⟨next, x.exponent - 1⟩ else x

/-- The greatest power of ten that is a 64-bit number. -/
def greatestPower : Nat := 308

/-- A power of ten up to the greatest one. -/
def powerOfTen (exponent : Nat) : Float :=
  Float.ofScientific 1 false exponent

/-- The significand, brought to 64 bits, times or divided by the power of ten, none when it is too
great. A divisor that is too great for one division is divided by in two; beyond that nothing is
left. -/
def toFloat? (x : DecimalFloat) : Option Float :=
  let size := Float.ofNat x.significand
  if 0 ≤ x.exponent then
    if x.significand = 0 then some 0
    else if greatestPower < x.exponent then none
    else
      let product := size * powerOfTen x.exponent.toNat
      if product.isInf then none else some product
  else
    let divisor := (-x.exponent).toNat
    if divisor ≤ greatestPower then some (size / powerOfTen divisor)
    else if divisor ≤ 2 * greatestPower then
      some (size / powerOfTen greatestPower / powerOfTen (divisor - greatestPower))
    else some 0

end DecimalFloat

namespace JsonNumber

/-- An integer. -/
def ofInt (value : Int) : JsonNumber where
  negative := decide (value < 0)
  whole := Nat.toDigits 10 value.natAbs
  places := []
  power := none

/-- The integer that was written as one, from -2^63 to 2^64 - 1. A zero with a sign is none. -/
def toInt? (n : JsonNumber) : Option Int :=
  let size := Text.digitsValue n.whole
  let value : Int := if n.negative then -(size : Int) else size
  if n.places.isEmpty ∧ n.power.isNone ∧ !(n.negative && size == 0)
      ∧ -2 ^ 63 ≤ value ∧ value < 2 ^ 64 then
    some value
  else
    none

/-- The digits as far as they are taken in, with the power of ten. -/
def toDecimalFloat (n : JsonNumber) : DecimalFloat :=
  let read := DecimalFloat.takePlaces n.places (DecimalFloat.takeWhole n.whole ⟨0, 0⟩)
  { read with exponent := read.exponent + n.power.getD 0 }

/-- The number in 64-bit floating point, none when it is too great. -/
def toFloat? (n : JsonNumber) : Option Float :=
  n.toDecimalFloat.toFloat?.map fun size => if n.negative then -size else size

end JsonNumber

end ObjectQuery

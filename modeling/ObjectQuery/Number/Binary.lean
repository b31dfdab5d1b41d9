import ObjectQuery.Number.Power

/-!
Contract: binary floating-point numbers as exact integers.

Owns:
- `BinaryFormat`, the two interchange formats that values come in;
- `BinaryReading`, a bit pattern read as `± significand * 2 ^ exponent`;
- the exact remainder of two finite numbers, which is again a number of the format.

Does not own: addition, multiplication and division, which are the machine's.
-/

namespace ObjectQuery

/-- An interchange format: how many bits hold the fraction and the exponent. -/
structure BinaryFormat where
  fractionBits : Nat
  exponentBits : Nat
deriving DecidableEq, Repr

namespace BinaryFormat

/-- The format of 32 bits. -/
def single : BinaryFormat := ⟨23, 8⟩

/-- The format of 64 bits. -/
def double : BinaryFormat := ⟨52, 11⟩

/-- The exponent of the unit of the smallest numbers. -/
def minExponent (format : BinaryFormat) : Int :=
  2 - 2 ^ (format.exponentBits - 1) - format.fractionBits

end BinaryFormat

/-- What a bit pattern stands for. -/
inductive BinaryReading where
  | finite (negative : Bool) (significand : Nat) (exponent : Int)
  | infinite (negative : Bool)
  | nan
deriving DecidableEq, Repr

namespace BinaryReading

/-- Reads a bit pattern. -/
def ofBits (format : BinaryFormat) (bits : Nat) : BinaryReading :=
  let fraction := bits % 2 ^ format.fractionBits
  let biased := bits / 2 ^ format.fractionBits % 2 ^ format.exponentBits
  let negative := bits / 2 ^ (format.fractionBits + format.exponentBits) % 2 == 1
  if biased = 2 ^ format.exponentBits - 1 then
    if fraction = 0 then infinite negative else nan
  else if biased = 0 then
    finite negative fraction format.minExponent
  else
    finite negative (2 ^ format.fractionBits + fraction) (format.minExponent + biased - 1)

/-- Shifts a significand up until it has all its bits or the exponent is the smallest. -/
def normalize (format : BinaryFormat) : Nat → Nat → Int → Nat × Int
  | 0, significand, exponent => (significand, exponent)
  | steps + 1, significand, exponent =>
    if significand < 2 ^ format.fractionBits ∧ format.minExponent < exponent then
      normalize format steps (2 * significand) (exponent - 1)
    else
      (significand, exponent)

/-- The bit pattern of `± significand * 2 ^ exponent`, which is a number of the format. -/
def toBits (format : BinaryFormat) (negative : Bool) (significand : Nat) (exponent : Int) : Nat :=
  let (full, least) := normalize format (format.fractionBits + 1) significand exponent
  let sign := if negative then 2 ^ (format.fractionBits + format.exponentBits) else 0
  if full < 2 ^ format.fractionBits then
    sign + full
  else
    sign + (least - format.minExponent + 1).toNat * 2 ^ format.fractionBits
      + (full - 2 ^ format.fractionBits)

/-- The remainder of the dividend's size by the divisor's size: the multiple of the smaller unit
that is left over. -/
def remainderSize (x : Nat) (xExponent : Int) (y : Nat) (yExponent : Int) : Nat × Int :=
  if yExponent ≤ xExponent then
    (x * 2 ^ (xExponent - yExponent).toNat % y, yExponent)
  else
    (x % (y * 2 ^ (yExponent - xExponent).toNat), xExponent)

/-- The remainder after division with the quotient cut toward zero, as a bit pattern; `none` when
it is not a number. A finite dividend is its own remainder by an infinite divisor. -/
def remainderBits? (format : BinaryFormat) (x y : Nat) : Option Nat :=
  match ofBits format x, ofBits format y with
  | finite negative xSize xExponent, finite _ ySize yExponent =>
    if ySize = 0 then none
    else
      let rest := remainderSize xSize xExponent ySize yExponent
      some (toBits format negative rest.1 rest.2)
  | finite .., infinite _ => some x
  | _, _ => none

end BinaryReading

/-- The remainder of two 64-bit numbers, with the dividend's sign. -/
def floatRemainder (x y : Float) : Float :=
  match BinaryReading.remainderBits? .double x.toBits.toNat y.toBits.toNat with
  | some bits => Float.ofBits bits.toUInt64
  | none => 0 / 0

/-- The remainder of two 32-bit numbers, with the dividend's sign. -/
def float32Remainder (x y : Float32) : Float32 :=
  match BinaryReading.remainderBits? .single x.toBits.toNat y.toBits.toNat with
  | some bits => Float32.ofBits bits.toUInt32
  | none => 0 / 0

end ObjectQuery

import ObjectQuery.Number.Shortest

/-!
Contract: binary floating-point numbers as text.

Owns:
- `floatText` and `float32Text`: the shortest digits in positional notation, never with an
  exponent and without a point behind a whole number;
- `positional`, the layout those two share.
-/

namespace ObjectQuery

/-- `coefficient * 10 ^ exponent` written without an exponent. -/
def positional (coefficient : Nat) (exponent : Int) : List Char :=
  let digits := Nat.toDigits 10 coefficient
  if 0 ≤ exponent then
    digits ++ List.replicate exponent.toNat '0'
  else
    let places := (-exponent).toNat
    let padded := List.replicate (places + 1 - digits.length) '0' ++ digits
    padded.take (padded.length - places) ++ '.' :: padded.drop (padded.length - places)

/-- The text of a bit pattern. A number that is not one has no sign; a zero keeps its own. -/
def binaryText (format : BinaryFormat) (bits : Nat) : String :=
  let signed (negative : Bool) (body : List Char) : String :=
    String.ofList (if negative then '-' :: body else body)
  match BinaryReading.ofBits format bits with
  | .nan => "NaN"
  | .infinite negative => signed negative ['i', 'n', 'f']
  | .finite negative significand exponent =>
    if significand = 0 then
      signed negative ['0']
    else
      let shortest := Shortest.digits format significand exponent
      signed negative (positional shortest.1 shortest.2)

/-- The text of a 64-bit number. -/
def floatText (x : Float) : String :=
  binaryText .double x.toBits.toNat

/-- The text of a 32-bit number. -/
def float32Text (x : Float32) : String :=
  binaryText .single x.toBits.toNat

end ObjectQuery

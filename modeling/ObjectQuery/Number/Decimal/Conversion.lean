import ObjectQuery.Number.Decimal

/-!
Contract: decimals as binary floating-point numbers.

Owns: `toFloat`, `toFloat32`.
-/

namespace ObjectQuery.Decimal

/-- The integer part and the fraction are converted on their own and added; the sum is then rounded
to the number's own decimal places, a half away from zero. -/
def toFloat (x : Decimal) : Float :=
  if x.scale = 0 then
    let magnitude := Float.ofNat x.coefficient
    if x.negative && !x.isZero then -magnitude else magnitude
  else
    let unit := 10 ^ x.scale
    let whole := Float.ofNat (x.coefficient / unit)
    let fraction := Float.ofNat (x.coefficient % unit) / Float.ofNat unit
    let magnitude :=
      if fraction == 0 then whole
      else ((whole + fraction) * Float.ofNat unit).round / Float.ofNat unit
    if x.negative then -magnitude else magnitude

/-- The 64-bit conversion narrowed to 32 bits. -/
def toFloat32 (x : Decimal) : Float32 :=
  x.toFloat.toFloat32

end ObjectQuery.Decimal

import ObjectQuery.Number.Binary

/-!
Contract: the fewest decimal digits that read back as the same binary number.

The numbers that round to `significand * 2 ^ exponent` form an interval around it, ends included
exactly when the significand is even. On a decimal grid only the two neighbours of the number can
be the nearest point inside the interval, so the coarsest grid with a neighbour inside gives the
fewest digits.

Owns: `Shortest.digits`, the decimal `coefficient * 10 ^ exponent`.

Does not own: how the digits are laid out as text.
-/

namespace ObjectQuery.Shortest

/-- An interval of positive numbers over a common denominator, with the number it belongs to. -/
structure Interval where
  low : Nat
  middle : Nat
  high : Nat
  denominator : Nat
  closed : Bool
deriving DecidableEq, Repr

/-- The numbers that round to `significand * 2 ^ exponent`. Below a power of two the neighbour is
only half as far away, unless it is the smallest normal number. -/
def Interval.around (format : BinaryFormat) (significand : Nat) (exponent : Int) : Interval :=
  let narrow := significand = 2 ^ format.fractionBits ∧ format.minExponent < exponent
  let scale := if 2 ≤ exponent then 2 ^ (exponent - 2).toNat else 1
  { low := (4 * significand - if narrow then 1 else 2) * scale
    middle := 4 * significand * scale
    high := (4 * significand + 2) * scale
    denominator := if 2 ≤ exponent then 1 else 2 ^ (2 - exponent).toNat
    closed := significand % 2 == 0 }

/-- The interval measured in units of `10 ^ exponent`. -/
def Interval.inUnits (interval : Interval) (exponent : Int) : Interval :=
  if 0 ≤ exponent then
    { interval with denominator := interval.denominator * 10 ^ exponent.toNat }
  else
    let factor := 10 ^ (-exponent).toNat
    { interval with
      low := interval.low * factor
      middle := interval.middle * factor
      high := interval.high * factor }

/-- The integer lies in the interval. -/
def Interval.holds (interval : Interval) (point : Nat) : Bool :=
  let scaled := point * interval.denominator
  if interval.closed then interval.low ≤ scaled && scaled ≤ interval.high
  else interval.low < scaled && scaled < interval.high

/-- The nearest integer in the interval, the larger of two equally near ones. -/
def Interval.nearest? (interval : Interval) : Option Nat :=
  let below := interval.middle / interval.denominator
  let above := if interval.middle % interval.denominator = 0 then below else below + 1
  let rest := 2 * (interval.middle % interval.denominator)
  match interval.holds below, interval.holds above with
  | true, true => some (if rest < interval.denominator then below else above)
  | true, false => some below
  | false, true => some above
  | false, false => none

/-- Tries `10 ^ exponent` and finer grids in turn. -/
def search (interval : Interval) : Nat → Int → Nat × Int
  | 0, exponent => (interval.middle / interval.denominator, exponent)
  | grids + 1, exponent =>
    match (interval.inUnits exponent).nearest? with
    | some point => (point, exponent)
    | none => search interval grids (exponent - 1)

/-- An exponent of ten that no number of the interval's middle exceeds. -/
def topExponent (interval : Interval) : Int :=
  let whole := interval.middle / interval.denominator
  if 0 < whole then
    (Nat.toDigits 10 whole).length
  else
    1 - ((Nat.toDigits 10 (interval.denominator / interval.middle)).length : Int)

/-- The shortest decimal that reads back as `significand * 2 ^ exponent`, which is not zero. -/
def digits (format : BinaryFormat) (significand : Nat) (exponent : Int) : Nat × Int :=
  let interval := Interval.around format significand exponent
  search interval 20 (topExponent interval)

end ObjectQuery.Shortest

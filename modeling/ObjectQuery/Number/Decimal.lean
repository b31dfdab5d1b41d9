import ObjectQuery.Number.Power

/-!
Contract: exact decimal numbers of bounded size.

A decimal is `± coefficient / 10 ^ scale` with a coefficient below `2 ^ 96` and at most 28 decimal
places. The scale is part of the number's form and is kept by its text; numbers are compared by
their value.

Owns: the type, its bounds, sign change, comparison.

Does not own: the four operations, text, conversion to binary floating point.
-/

namespace ObjectQuery

/-- `± coefficient / 10 ^ scale`. A zero may carry a sign. -/
structure Decimal where
  negative : Bool
  coefficient : Nat
  scale : Nat
  coefficient_lt : coefficient < 2 ^ 96
  scale_le : scale ≤ 28
deriving DecidableEq, Repr

namespace Decimal

/-- The decimal with these parts, when they are within the bounds. -/
def make? (negative : Bool) (coefficient scale : Nat) : Option Decimal :=
  if bounds : coefficient < 2 ^ 96 ∧ scale ≤ 28 then
    some ⟨negative, coefficient, scale, bounds.1, bounds.2⟩
  else
    none

/-- Zero without a sign and without decimal places. -/
def zero : Decimal := ⟨false, 0, 0, by decide, by decide⟩

instance : Inhabited Decimal := ⟨zero⟩

/-- The integer as a decimal without decimal places. -/
def ofInt (value : Int) (small : value.natAbs < 2 ^ 96) : Decimal :=
  ⟨decide (value < 0), value.natAbs, 0, small, Nat.zero_le _⟩

/-- The numerator over `10 ^ scale`. -/
def numerator (x : Decimal) : Int :=
  if x.negative then -(x.coefficient : Int) else x.coefficient

/-- Zero in any form. -/
def isZero (x : Decimal) : Bool :=
  x.coefficient == 0

/-- The number with the opposite sign; a zero changes its sign too. -/
def neg (x : Decimal) : Decimal :=
  { x with negative := !x.negative }

/-- The number itself, and a zero without its sign. -/
def dropZeroSign (x : Decimal) : Decimal :=
  if x.isZero then { x with negative := false } else x

/-- The number without its sign. -/
def abs (x : Decimal) : Decimal :=
  { x with negative := false }

/-- The order of the numbers' values. -/
def compare (x y : Decimal) : Ordering :=
  Ord.compare (x.numerator * 10 ^ y.scale) (y.numerator * 10 ^ x.scale)

/-- Equal as numbers, whatever their scales. -/
def sameNumber (x y : Decimal) : Bool :=
  x.compare y == .eq

end Decimal

end ObjectQuery

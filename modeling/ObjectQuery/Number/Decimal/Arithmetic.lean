import ObjectQuery.Number.Decimal
import ObjectQuery.Number.Rounding
import ObjectQuery.Number.WordRemainder

/-!
Contract: the four operations and the remainder on decimals.

A result that does not fit loses as few low places as possible, rounded once from the exact value,
a half going to the even neighbour. Where even the integer part does not fit there is no result.
A result that rounds to zero has no sign, save for products with a coefficient of `2 ^ 32` or more.

Owns: `add?`, `subtract?`, `multiply?`, `divide?`, `remainder?`.

Does not own: division by zero, which is refused before these operations are reached.
-/

namespace ObjectQuery.Decimal

/-- `± coefficient / 10 ^ scale` rounded to at most `places` places, and to fewer while it does not
fit. -/
def fitAt? (negative : Bool) (coefficient scale : Nat) : Nat → Option Decimal
  | 0 => make? negative (divideHalfEven coefficient (10 ^ scale)) 0
  | places + 1 =>
    match make? negative (divideHalfEven coefficient (10 ^ (scale - (places + 1)))) (places + 1) with
    | some result => some result
    | none => fitAt? negative coefficient scale places

/-- The decimal nearest to `± coefficient / 10 ^ scale` with as many of its places as fit. The sign
stays even where nothing else is left of the number. -/
def fitSigned? (negative : Bool) (coefficient scale : Nat) : Option Decimal :=
  fitAt? negative coefficient scale (min scale 28)

/-- The decimal nearest to `± coefficient / 10 ^ scale` with as many of its places as fit. A zero
has no sign. -/
def fit? (negative : Bool) (coefficient scale : Nat) : Option Decimal :=
  (fitSigned? negative coefficient scale).map dropZeroSign

/-- The sum of two numbers that are not zero. -/
def addNonzero? (x y : Decimal) : Option Decimal :=
  let scale := max x.scale y.scale
  let sum := x.numerator * 10 ^ (scale - x.scale) + y.numerator * 10 ^ (scale - y.scale)
  fit? (decide (sum < 0)) sum.natAbs scale

/-- A zero leaves the other operand as it is; of two zeros the right one is kept. -/
def add? (x y : Decimal) : Option Decimal :=
  if x.isZero then some y
  else if y.isZero then some x
  else addNonzero? x y

/-- A zero on the right leaves the left operand as it is, a zero on the left changes the sign of the
right one; of two zeros the right one is kept unchanged. -/
def subtract? (x y : Decimal) : Option Decimal :=
  if y.isZero then
    if x.isZero then some y else some x
  else if x.isZero then some y.neg
  else addNonzero? x y.neg

/-- The greatest sum of scales for which a product of two small coefficients keeps its places. -/
def deepestSmallScale : Nat := 47

/-- A product of two coefficients below `2 ^ 32`. Scales that add up to more than 47 leave a plain
zero; otherwise a product that rounds to zero has no sign. -/
def multiplySmall? (negative : Bool) (coefficient scale : Nat) : Option Decimal :=
  if deepestSmallScale < scale then some zero else fit? negative coefficient scale

/-- A zero operand gives a plain zero. A product with a coefficient of `2 ^ 32` or more keeps its
sign where it rounds to zero. -/
def multiply? (x y : Decimal) : Option Decimal :=
  if x.isZero || y.isZero then some zero
  else
    let negative := x.negative != y.negative
    let coefficient := x.coefficient * y.coefficient
    let scale := x.scale + y.scale
    if x.coefficient < 2 ^ 32 ∧ y.coefficient < 2 ^ 32 then
      multiplySmall? negative coefficient scale
    else
      fitSigned? negative coefficient scale

/-- The largest `power ≤ limit` for which `quotient * 10 ^ power` is below `2 ^ 96`. -/
def headroom (quotient : Nat) : Nat → Nat
  | 0 => 0
  | limit + 1 =>
    if quotient * 10 ^ (limit + 1) < 2 ^ 96 then limit + 1 else headroom quotient limit

/-- How far a long division has come: `quotient + remainder / divisor` over `10 ^ scale`. `expanded`
tells whether decimal places were added to write out a remainder. -/
structure LongDivision where
  quotient : Nat
  remainder : Nat
  scale : Int
  expanded : Bool
deriving DecidableEq, Repr

/-- Writes out `power` more digits. -/
def LongDivision.extend (divisor power : Nat) (state : LongDivision) : LongDivision where
  quotient := state.quotient * 10 ^ power + state.remainder * 10 ^ power / divisor
  remainder := state.remainder * 10 ^ power % divisor
  scale := state.scale + power
  expanded := state.expanded

/-- Ends a division: the exact quotient is rounded without its last `dropped` places, a half going
to the even neighbour. -/
def LongDivision.round (divisor dropped : Nat) (state : LongDivision) : LongDivision where
  quotient :=
    divideHalfEven (state.quotient * divisor + state.remainder) (divisor * 10 ^ dropped)
  remainder := 0
  scale := state.scale - dropped
  expanded := true

/-- Writes out digits, at most nine at a time, until the remainder is used up or no place is left;
what then remains rounds the last digit. Digits that take the quotient beyond its bound end the
division too, and the last place is given up. -/
def LongDivision.run (divisor : Nat) : Nat → LongDivision → Option LongDivision
  | 0, _ => none
  | rounds + 1, state =>
    if state.remainder = 0 then
      if 0 ≤ state.scale then
        some state
      else
        let next := state.extend divisor (min 9 state.scale.natAbs)
        if next.quotient < 2 ^ 96 then next.run divisor rounds else none
    else
      let power := headroom state.quotient (min 9 (28 - state.scale).toNat)
      if power = 0 then
        if state.scale < 0 then none else some (state.round divisor 0)
      else
        let next := state.extend divisor power
        if next.quotient < 2 ^ 96 then { next with expanded := true }.run divisor rounds
        else if next.scale ≤ 0 then none
        else some (next.round divisor 1)

/-- Divides by `10 ^ power` when the coefficient ends in `power` zeros and has the places. -/
def dropZeros (power : Nat) (applies : Nat → Bool) (form : Nat × Nat) : Nat × Nat :=
  if applies form.1 ∧ power ≤ form.2 ∧ form.1 % 10 ^ power = 0 then
    (form.1 / 10 ^ power, form.2 - power)
  else
    form

/-- Strips trailing zeros of a coefficient and its scale: eight at a time while the low 32 bits are
zero, then four, two and one, each once and only where the low bits admit it. -/
def stripZeros (coefficient scale : Nat) : Nat × Nat :=
  let eight := dropZeros 8 (fun c => c % 2 ^ 32 = 0)
  [eight, eight, eight,
    dropZeros 4 (fun c => c % 16 = 0),
    dropZeros 2 (fun c => c % 4 = 0),
    dropZeros 1 (fun c => c % 2 = 0)].foldl (fun form step => step form) (coefficient, scale)

/-- The quotient by a number that is not zero. -/
def divide? (x y : Decimal) : Option Decimal :=
  if x.isZero then some zero
  else do
    let start : LongDivision :=
      ⟨x.coefficient / y.coefficient, x.coefficient % y.coefficient,
        (x.scale : Int) - y.scale, false⟩
    let done ← start.run y.coefficient 57
    let form :=
      if done.expanded then stripZeros done.quotient done.scale.toNat
      else (done.quotient, done.scale.toNat)
    fit? (x.negative != y.negative) form.1 form.2

/-- The remainder of the sizes over their common scale. It is exact, except that a dividend with
fewer places than a divisor of three words is divided word by word. -/
def remainderSize (x y : Decimal) : Nat :=
  let scale := max x.scale y.scale
  let dividend := x.coefficient * 10 ^ (scale - x.scale)
  if x.scale < y.scale ∧ 2 ^ 64 ≤ y.coefficient then
    wordRemainder dividend y.coefficient
  else
    dividend % (y.coefficient * 10 ^ (scale - y.scale))

/-- The remainder by a number that is not zero, with the sign of the dividend; a zero has none. A
dividend that is smaller than the divisor is kept as it is; equal sizes leave a plain zero. -/
def remainder? (x y : Decimal) : Option Decimal :=
  if x.isZero then some zero
  else
    match x.abs.compare y.abs with
    | .eq => some zero
    | .lt => some x
    | .gt => (make? x.negative (x.remainderSize y) (max x.scale y.scale)).map dropZeroSign

end ObjectQuery.Decimal

import ObjectQuery.Number.Decimal
import ObjectQuery.Text.Digits

/-!
Contract: decimals as text.

Owns:
- `text`, which writes every place of the scale;
- `ofText?`, which reads a sign, digits and a point. Places that do not fit are cut after rounding
  half up on the first of them alone; an integer part that does not fit has no reading;
- `ofScientificText?`, which also reads a power of ten from -28 to 28.

Does not own: the texts of number tokens, which are narrower.
-/

namespace ObjectQuery.Decimal

/-- At least one digit, then a point and the decimal places if there are any. -/
def text (x : Decimal) : String :=
  let digits := Nat.toDigits 10 x.coefficient
  let padded := List.replicate (x.scale + 1 - digits.length) '0' ++ digits
  let whole := padded.take (padded.length - x.scale)
  let places := padded.drop (padded.length - x.scale)
  let sign := if x.negative then ['-'] else []
  String.ofList (sign ++ whole ++ if x.scale = 0 then [] else '.' :: places)

/-- How far a text has been read. -/
structure Reading where
  coefficient : Nat
  scale : Nat
  pointSeen : Bool
  digitSeen : Bool
deriving DecidableEq, Repr

/-- The number that has been read, with its sign; a zero has none. -/
def Reading.finish (negative : Bool) (reading : Reading) : Option Decimal :=
  if reading.digitSeen then
    make? (negative && reading.coefficient != 0) reading.coefficient reading.scale
  else
    none

/-- The number that a decimal digit stands for. -/
def digit? (c : Char) : Option Nat :=
  if c.isDigit then some (Text.digitValue c) else none

/-- Ends a reading before characters that have no place any more. They have to be digits and
underscores, and the first digit among them rounds up from five on. -/
def Reading.cut (negative : Bool) (tail : List Char) (reading : Reading) : Option Decimal :=
  if tail.any fun c => !(c.isDigit || c == '_') then none
  else
    let roundsUp := (tail.find? Char.isDigit).any fun c => 5 ≤ Text.digitValue c
    let rounded := if roundsUp then reading.coefficient + 1 else reading.coefficient
    if rounded < 2 ^ 96 then
      make? (negative && rounded != 0) rounded reading.scale
    else if reading.scale = 0 then
      none
    else
      make? negative ((rounded + 4) / 10) (reading.scale - 1)

/-- Reads on, one character at a time. -/
def Reading.run (negative : Bool) : Reading → List Char → Option Decimal
  | reading, [] => reading.finish negative
  | reading, c :: rest =>
    if reading.pointSeen ∧ 28 ≤ reading.scale then
      reading.cut negative (c :: rest)
    else
      match digit? c with
      | some d =>
        let next := reading.coefficient * 10 + d
        if next < 2 ^ 96 then
          Reading.run negative
            ⟨next, if reading.pointSeen then reading.scale + 1 else reading.scale,
              reading.pointSeen, true⟩ rest
        else if reading.pointSeen then
          reading.cut negative (c :: rest)
        else
          none
      | none =>
        if c = '.' ∧ !reading.pointSeen then
          Reading.run negative { reading with pointSeen := true } rest
        else if c = '_' ∧ reading.digitSeen then
          Reading.run negative reading rest
        else
          none

/-- Reads a whole text: an optional sign, digits with at most one point among them, and
underscores between digits. -/
def ofText? (source : String) : Option Decimal :=
  let start : Reading := ⟨0, 0, false, false⟩
  match source.toList with
  | '-' :: rest => start.run true rest
  | '+' :: rest => start.run false rest
  | chars => start.run false chars

/-- The power of ten behind an `e`, and whether it divides: a sign, one more plus, and digits. -/
def exponent? (power : List Char) : Option (Bool × Nat) :=
  let (down, rest) :=
    match power with
    | '-' :: rest => (true, rest)
    | '+' :: rest => (false, rest)
    | rest => (false, rest)
  let digits :=
    match rest with
    | '+' :: digits => digits
    | digits => digits
  if digits.isEmpty || digits.any (!·.isDigit) then none
  else some (down, Text.digitsValue digits)

/-- The greatest power of ten that a text may name. -/
def deepestExponent : Nat := 28

/-- The number divided by `10 ^ exponent`. Places beyond the last one are cut after rounding, a half
away from zero; a number of which nothing is left keeps its sign. -/
def shiftDown? (exponent : Nat) (x : Decimal) : Option Decimal :=
  let scale := x.scale + exponent
  let unit := 10 ^ (scale - 28)
  make? x.negative ((x.coefficient + unit / 2) / unit) (min scale 28)

/-- The number multiplied by `10 ^ exponent`, without giving it places that it does not have. -/
def shiftUp? (exponent : Nat) (x : Decimal) : Option Decimal :=
  make? x.negative (x.coefficient * 10 ^ (exponent - x.scale)) (x.scale - exponent)

/-- Reads a number behind an `e` or `E` as the power of ten that the number in front is multiplied
with. Powers beyond 28 have no reading. -/
def ofScientificText? (source : String) : Option Decimal := do
  let chars := source.toList
  let isMark (c : Char) : Bool := c == 'e' || c == 'E'
  let base ← ofText? (String.ofList (chars.takeWhile (!isMark ·)))
  let (down, exponent) ← exponent? (chars.dropWhile (!isMark ·)).tail
  if deepestExponent < exponent then none
  else if down then base.shiftDown? exponent
  else base.shiftUp? exponent

end ObjectQuery.Decimal

import ObjectQuery.Calendar.Layout
import ObjectQuery.Number.Decimal.Conversion
import ObjectQuery.Number.Decimal.Text
import ObjectQuery.Number.FloatText
import ObjectQuery.Value.Integer

/-!
Contract: the scalar values of the query language.

Owns:
- `DataType`, `ValueType` and `Value`;
- the numeric ladder `Rank` and widening along it;
- equality of values as data, and the text of a value.

Does not own: operators on values.
-/

namespace ObjectQuery

/-- The type of a field. -/
inductive DataType where
  | boolean
  | integer (width : IntWidth)
  | decimal
  | float
  | double
  | string
  | dateTime
deriving DecidableEq, Repr

/-- The type of a value: that of a field, or that of the missing value. -/
inductive ValueType where
  | null
  | data (dataType : DataType)
deriving DecidableEq, Repr

/-- The name of a type in messages. -/
def ValueType.name : ValueType → String
  | .null => "null"
  | .data .boolean => "boolean"
  | .data (.integer .w8) => "int8"
  | .data (.integer .w16) => "int16"
  | .data (.integer .w32) => "int32"
  | .data (.integer .w64) => "int64"
  | .data .decimal => "decimal"
  | .data .float => "float"
  | .data .double => "double"
  | .data .string => "string"
  | .data .dateTime => "datetime"

/-- A scalar value. `float` has 32 bits and `double` has 64. -/
inductive Value where
  | null
  | boolean (value : Bool)
  | integer (value : Integer)
  | decimal (value : Decimal)
  | float (value : Float32)
  | double (value : Float)
  | string (value : String)
  | dateTime (value : DateTime)
deriving Repr, Inhabited

/-- The rungs of the numeric ladder. Two numbers meet on the higher of their rungs. -/
inductive Rank where
  | integer (width : IntWidth)
  | decimal
  | float
  | double
deriving DecidableEq, Repr

namespace Rank

/-- The height of a rung. -/
def level : Rank → Nat
  | .integer width => width.level
  | .decimal => 4
  | .float => 5
  | .double => 6

/-- The higher of two rungs. -/
def max (x y : Rank) : Rank :=
  if x.level ≤ y.level then y else x

end Rank

/-- The nearest 32-bit number to an integer. -/
def nearestFloat32 (value : Int) : Float32 :=
  let size := Float32.ofNat value.natAbs
  if value < 0 then -size else size

namespace Value

/-- The type of a value. -/
def type : Value → ValueType
  | .null => .null
  | .boolean _ => .data .boolean
  | .integer n => .data (.integer n.width)
  | .decimal _ => .data .decimal
  | .float _ => .data .float
  | .double _ => .data .double
  | .string _ => .data .string
  | .dateTime _ => .data .dateTime

/-- The rung of a number, none for any other value. -/
def rank? : Value → Option Rank
  | .integer n => some (.integer n.width)
  | .decimal _ => some .decimal
  | .float _ => some .float
  | .double _ => some .double
  | _ => none

/-- The value is the missing one. -/
def isNull : Value → Bool
  | .null => true
  | _ => false

/-- The value is a number. -/
def isNumeric (v : Value) : Bool :=
  v.rank?.isSome

/-- A number in 64-bit floating point, none for any other value. -/
def toFloat? : Value → Option Float
  | .integer n => some (Float.ofInt n.value)
  | .decimal d => some d.toFloat
  | .float x => some x.toFloat
  | .double x => some x
  | _ => none

/-- A number on a rung that is not lower than its own; none for a lower rung and for any other
value. -/
def widen? (v : Value) (rank : Rank) : Option Value :=
  match v, rank with
  | .integer n, .integer width =>
    if n.width.level ≤ width.level then (n.widen? width).map .integer else none
  | .integer n, .decimal => some (.decimal (Decimal.ofInt n.value n.natAbs_lt))
  | .integer n, .float => some (.float (nearestFloat32 n.value))
  | .integer n, .double => some (.double (Float.ofInt n.value))
  | .decimal d, .decimal => some (.decimal d)
  | .decimal d, .float => some (.float d.toFloat32)
  | .decimal d, .double => some (.double d.toFloat)
  | .float x, .float => some (.float x)
  | .float x, .double => some (.double x.toFloat)
  | .double x, .double => some (.double x)
  | _, _ => none

/-- Equality as data: the same type and content, decimals by number, and floating-point numbers by
their own comparison, so that a NaN differs from itself. -/
def same : Value → Value → Bool
  | .null, .null => true
  | .boolean a, .boolean b => a == b
  | .integer a, .integer b => a == b
  | .decimal a, .decimal b => a.sameNumber b
  | .float a, .float b => a == b
  | .double a, .double b => a == b
  | .string a, .string b => a == b
  | .dateTime a, .dateTime b => a == b
  | _, _ => false

/-- The plain text of a value. -/
def text : Value → String
  | .null => "null"
  | .boolean b => if b then "true" else "false"
  | .integer n => toString n.value
  | .decimal d => d.text
  | .float x => float32Text x
  | .double x => floatText x
  | .string s => s
  | .dateTime d => d.text

end Value

end ObjectQuery

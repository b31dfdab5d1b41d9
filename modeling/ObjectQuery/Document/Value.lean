import ObjectQuery.Document.Record
import ObjectQuery.Value

/-!
Contract: values in JSON documents.

A value is the name of its type with its content: a boolean, a number, or a text for strings,
decimals and dates.

Owns: `Value.ofJson?` and the names of types in documents.
-/

namespace ObjectQuery

namespace Json

/-- A number that was written as an integer from -2^63 to 2^64 - 1. Any other number, a zero with a
sign included, counts as a floating-point number. -/
def asInt? : Json → Option Int
  | number n => n.toInt?
  | _ => none

/-- A number in 64-bit floating point. -/
def asFloat? : Json → Option Float
  | number n => n.toFloat?
  | _ => none

/-- A number in 32-bit floating point: the nearest to an integer, and any other narrowed from 64
bits. -/
def asFloat32? (j : Json) : Option Float32 :=
  match j.asInt? with
  | some value => some (nearestFloat32 value)
  | none => j.asFloat?.map Float.toFloat32

/-- A decimal: a text, or a number by its shortest text. -/
def asDecimal? (j : Json) : Option Decimal :=
  match j with
  | string (some text) => (Decimal.ofText? text).or (Decimal.ofScientificText? text)
  | _ =>
    match j.asInt? with
    | some i => Decimal.make? (decide (i < 0)) i.natAbs 0
    | none => j.asFloat?.bind fun x => Decimal.ofText? (floatText x)

end Json

namespace DataType

/-- The name of a type in documents. -/
def documentName : DataType → String
  | .boolean => "Boolean"
  | .integer .w8 => "Int8"
  | .integer .w16 => "Int16"
  | .integer .w32 => "Int32"
  | .integer .w64 => "Int64"
  | .decimal => "Decimal"
  | .float => "Float"
  | .double => "Double"
  | .string => "String"
  | .dateTime => "DateTime"

/-- All types. -/
def all : List DataType :=
  [.boolean, .integer .w8, .integer .w16, .integer .w32, .integer .w64, .decimal, .float, .double,
    .string, .dateTime]

/-- The type with a name in documents. -/
def ofDocumentName? (name : String) : Option DataType :=
  all.find? (·.documentName = name)

end DataType

namespace Value

/-- A value of a type from its content. -/
def ofContent? (content : Json) : DataType → Option Value
  | .boolean => content.asBoolean?.map .boolean
  | .integer width => (content.asInt?.bind (Integer.make? width)).map .integer
  | .decimal => content.asDecimal?.map .decimal
  | .float => content.asFloat32?.map .float
  | .double => content.asFloat?.map .double
  | .string => content.asString?.map .string
  | .dateTime => (content.asString?.bind DateTime.ofIso?).map .dateTime

/-- A value from a document. -/
def ofJson? (j : Json) : Option Value :=
  match j.choice? with
  | some ("Null", none) => some .null
  | some ("Null", some .null) => some .null
  | some (name, some content) => DataType.ofDocumentName? name >>= ofContent? content
  | _ => none

end Value

end ObjectQuery

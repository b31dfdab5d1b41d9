import ObjectQuery.Token
import ObjectQuery.Value

/-!
Contract: everything that can go wrong, as causes.

Owns:
- `Expectation`, what a parser was looking for;
- `Error`, one constructor for each cause;
- the kind, the place in the source and the message of an error.

Does not own: when an error arises.
-/

namespace ObjectQuery

/-- What the parser was looking for when it met a token that does not fit. -/
inductive Expectation where
  | word (text : String)
  | token (kind : TokenKind)
  | expression
  | parameterIndex
  | numericLiteral
deriving DecidableEq, Repr

/-- What messages call an expectation. -/
def Expectation.describe : Expectation → String
  | .word text => "'" ++ text ++ "'"
  | .token kind => kind.describe
  | .expression => "expression"
  | .parameterIndex => "parameter index"
  | .numericLiteral => "numeric literal"

/-- What cannot be evaluated without a database. -/
inductive DatabaseOnly where
  | rawText
  | nestedQuery
  | existence
  | asterisk
deriving DecidableEq, Repr

/-- What messages call it. -/
def DatabaseOnly.describe : DatabaseOnly → String
  | .rawText => "raw query text"
  | .nestedQuery => "nested query"
  | .existence => "exists"
  | .asterisk => "'*'"

/-- A number of things that is returned as a 32-bit integer. -/
inductive Tally where
  | stringLength
  | collectionSize
deriving DecidableEq, Repr

/-- What messages call it. -/
def Tally.describe : Tally → String
  | .stringLength => "string length"
  | .collectionSize => "collection size"

/-- A cause of failure. -/
inductive Error where
  | invalidCharacter (character : Char) (position : Nat)
  | unexpectedToken (expected : Expectation) (found : Token)
  | scalarCondition (position : Nat)
  | unknownClass (className : String)
  | unknownField (className field : String)
  | unknownCollection (className collection : String)
  | unknownProperty (className property : String)
  | unknownObject (handle : Nat)
  | notReference (className field : String)
  | emptyFrom
  | noTable (className : String)
  | noPrimaryKey (className : String)
  | noSelectorField (className : String)
  | associationProperty
  | invalidSchemaDocument
  | operandTypes (operator : String) (left right : ValueType)
  | negatedType (operand : ValueType)
  | notBoolean (found : ValueType)
  | propertyOfValue (property : String) (owner : ValueType)
  | notAnObject (path : String) (found : ValueType)
  | argumentType (function : String) (argument : ValueType)
  | argumentCount (function : String) (count : Nat)
  | parameterOutOfRange (index : Nat)
  | unknownFunction (function : String)
  | databaseOnly (what : DatabaseOnly)
  | pathOutsideQuery
  | divisionByZero
  | overflow (operator : String)
  | negationOverflow
  | tallyOverflow (tally : Tally) (count : Nat)
  | invalidConfiguration
deriving DecidableEq, Repr

/-- The kinds of errors. -/
inductive ErrorKind where
  | lexical
  | grammatical
  | schemaResolution
  | typing
  | unsupportedOperation
  | arithmetic
  | configuration
deriving DecidableEq, Repr

/-- The words with which every message of a kind begins. -/
def ErrorKind.heading : ErrorKind → String
  | .lexical => "Invalid token "
  | .grammatical => "Syntax error at position "
  | .schemaResolution => "Schema resolution error: "
  | .typing => "Type error: "
  | .unsupportedOperation => "Operation not supported: "
  | .arithmetic => "Arithmetic error: "
  | .configuration => "Configuration error: "

namespace Error

/-- The kind of an error. -/
def kind : Error → ErrorKind
  | invalidCharacter .. => .lexical
  | unexpectedToken .. | scalarCondition .. => .grammatical
  | unknownClass .. | unknownField .. | unknownCollection .. | unknownProperty ..
  | unknownObject .. | notReference .. | emptyFrom | noTable .. | noPrimaryKey ..
  | noSelectorField .. | associationProperty | invalidSchemaDocument => .schemaResolution
  | operandTypes .. | negatedType .. | notBoolean .. | propertyOfValue .. | notAnObject ..
  | argumentType .. | argumentCount .. | parameterOutOfRange .. => .typing
  | unknownFunction .. | databaseOnly .. | pathOutsideQuery => .unsupportedOperation
  | divisionByZero | overflow .. | negationOverflow | tallyOverflow .. => .arithmetic
  | invalidConfiguration => .configuration

/-- The byte of the source that an error of reading points at. -/
def position? : Error → Option Nat
  | invalidCharacter _ position => some position
  | unexpectedToken _ found => some found.position
  | scalarCondition position => some position
  | _ => none

/-- The message after its heading. -/
def detail : Error → String
  | invalidCharacter character position =>
    "'" ++ String.singleton character ++ s!"' at position {position}"
  | unexpectedToken expected found =>
    s!"{found.position}: expected {expected.describe}, found {found.describe}"
  | scalarCondition position =>
    s!"{position}: expected boolean expression, found scalar expression"
  | unknownClass className => s!"unknown class '{className}'"
  | unknownField className field => s!"class '{className}' has no field '{field}'"
  | unknownCollection className collection =>
    s!"class '{className}' has no collection '{collection}'"
  | unknownProperty className property => s!"class '{className}' has no property '{property}'"
  | unknownObject handle => s!"no object with handle {handle}"
  | notReference className field => s!"field '{field}' of class '{className}' is not a reference"
  | emptyFrom => "query has no from clause"
  | noTable className => s!"class '{className}' has no table"
  | noPrimaryKey className => s!"class '{className}' has no primary key"
  | noSelectorField className =>
    s!"class '{className}' belongs to a hierarchy without a selector field"
  | associationProperty => "association table has no properties"
  | invalidSchemaDocument => "invalid schema document"
  | operandTypes operator left right =>
    s!"operator '{operator}' cannot be applied to {left.name} and {right.name}"
  | negatedType operand => s!"unary '-' cannot be applied to {operand.name}"
  | notBoolean found => s!"expected boolean, found {found.name}"
  | propertyOfValue property owner => s!"cannot read property '{property}' of {owner.name}"
  | notAnObject path found => s!"'{path}' is a {found.name} value, not an object"
  | argumentType function argument =>
    s!"function '{function}' cannot be applied to {argument.name}"
  | argumentCount function count => s!"function '{function}' expects 1 argument, got {count}"
  | parameterOutOfRange index => s!"parameter {index} out of range"
  | unknownFunction function => s!"unknown function '{function}'"
  | databaseOnly what => s!"{what.describe} cannot be evaluated in memory"
  | pathOutsideQuery => "path outside of a query"
  | divisionByZero => "division by zero"
  | overflow operator => s!"overflow in '{operator}'"
  | negationOverflow => "overflow in unary '-'"
  | tallyOverflow tally count => s!"{tally.describe} {count} does not fit in int32"
  | invalidConfiguration => "invalid SQL configuration"

/-- The full message. -/
def message (error : Error) : String :=
  error.kind.heading ++ error.detail

end Error

end ObjectQuery

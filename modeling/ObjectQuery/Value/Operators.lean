import ObjectQuery.Expr
import ObjectQuery.Number.Decimal.Arithmetic
import ObjectQuery.Text.Like
import ObjectQuery.Value.Truth

/-!
Contract: the operators of the language on values.

Operands are first brought to a common type: a date beside a string makes both dates, a string
beside a boolean or a number makes both texts, and numbers meet on the higher of their rungs.

Owns: `Operands.promote`, `Value.arithmetic`, `Value.negate`, `Value.compare`.

Does not own: the evaluation of operands.
-/

namespace ObjectQuery

/-- Two operands of a common type. -/
inductive Operands where
  | null
  | booleans (left right : Bool)
  | integers (width : IntWidth) (left right : Int)
  | decimals (left right : Decimal)
  | floats (left right : Float32)
  | doubles (left right : Float)
  | texts (left right : String)
  | instants (left right : DateTime)

namespace Value

/-- A date, or a string that can be read as one. -/
def toDateTime? : Value → Option DateTime
  | .dateTime d => some d
  | .string s => DateTime.parse? s
  | _ => none

/-- The text of a string, a boolean or a number. -/
def toText? : Value → Option String
  | .string s => some s
  | .null | .dateTime _ => none
  | v => some v.text

/-- The value is a date. -/
def isDateTime : Value → Bool
  | .dateTime _ => true
  | _ => false

/-- The value is a string. -/
def isString : Value → Bool
  | .string _ => true
  | _ => false

/-- The value is a boolean. -/
def isBoolean : Value → Bool
  | .boolean _ => true
  | _ => false

end Value

namespace Operands

/-- Two numbers on the same rung. -/
def ofSameRung : Value → Value → Option Operands
  | .integer a, .integer b =>
    if a.width = b.width then some (.integers a.width a.value b.value) else none
  | .decimal a, .decimal b => some (.decimals a b)
  | .float a, .float b => some (.floats a b)
  | .double a, .double b => some (.doubles a b)
  | _, _ => none

/-- Two numbers on the higher of their rungs. -/
def ofNumbers (left right : Value) : Option Operands := do
  let rank := (← left.rank?).max (← right.rank?)
  ofSameRung (← left.widen? rank) (← right.widen? rank)

/-- Two values at a common type, if there is one. -/
def promote? (left right : Value) : Option Operands :=
  if left.isNull || right.isNull then
    some .null
  else if left.isDateTime || right.isDateTime then do
    pure (.instants (← left.toDateTime?) (← right.toDateTime?))
  else if left.isString || right.isString then do
    pure (.texts (← left.toText?) (← right.toText?))
  else
    match left, right with
    | .boolean a, .boolean b => some (.booleans a b)
    | _, _ => ofNumbers left right

/-- Two values at a common type; a failure names the operator and both types. -/
def promote (operator : String) (left right : Value) : Except Error Operands :=
  match promote? left right with
  | some operands => .ok operands
  | none => .error (.operandTypes operator left.type right.type)

end Operands

/-! ## Arithmetic -/

/-- Integer arithmetic with the quotient cut toward zero. A divisor of zero fails, and so does a
result that the width does not hold; for a remainder the quotient has to fit as well. -/
def integerArithmetic
    (op : ArithmeticOp)
    (width : IntWidth)
    (left right : Int) : Except Error Value :=
  let fit (result : Int) : Except Error Value :=
    match Integer.make? width result with
    | some n => .ok (.integer n)
    | none => .error (.overflow op.symbol)
  match op with
  | .add => fit (left + right)
  | .subtract => fit (left - right)
  | .multiply => fit (left * right)
  | .divide => if right = 0 then .error .divisionByZero else fit (left.tdiv right)
  | .modulo =>
    if right = 0 then .error .divisionByZero
    else if width.Holds (left.tdiv right) then fit (left.tmod right)
    else .error (.overflow op.symbol)

/-- Decimal arithmetic. A divisor of zero fails, and so does a result that is too great. -/
def decimalArithmetic (op : ArithmeticOp) (left right : Decimal) : Except Error Value :=
  let fit (result : Option Decimal) : Except Error Value :=
    match result with
    | some d => .ok (.decimal d)
    | none => .error (.overflow op.symbol)
  match op with
  | .add => fit (left.add? right)
  | .subtract => fit (left.subtract? right)
  | .multiply => fit (left.multiply? right)
  | .divide => if right.isZero then .error .divisionByZero else fit (left.divide? right)
  | .modulo => if right.isZero then .error .divisionByZero else fit (left.remainder? right)

/-- Arithmetic of 32-bit floating point, which never fails. -/
def float32Arithmetic (op : ArithmeticOp) (left right : Float32) : Float32 :=
  match op with
  | .add => left + right
  | .subtract => left - right
  | .multiply => left * right
  | .divide => left / right
  | .modulo => float32Remainder left right

/-- Arithmetic of 64-bit floating point, which never fails. -/
def floatArithmetic (op : ArithmeticOp) (left right : Float) : Float :=
  match op with
  | .add => left + right
  | .subtract => left - right
  | .multiply => left * right
  | .divide => left / right
  | .modulo => floatRemainder left right

/-- Applies an arithmetic operator. A null operand gives null, and `+` joins texts. -/
def Value.arithmetic (op : ArithmeticOp) (left right : Value) : Except Error Value := do
  match ← Operands.promote op.symbol left right with
  | .null => pure .null
  | .integers width a b => integerArithmetic op width a b
  | .decimals a b => decimalArithmetic op a b
  | .floats a b => pure (.float (float32Arithmetic op a b))
  | .doubles a b => pure (.double (floatArithmetic op a b))
  | .texts a b =>
    if op = .add then pure (.string (a ++ b))
    else .error (.operandTypes op.symbol left.type right.type)
  | .booleans .. | .instants .. => .error (.operandTypes op.symbol left.type right.type)

/-- Changes the sign of a number; null stays null. -/
def Value.negate : Value → Except Error Value
  | .null => .ok .null
  | .integer n =>
    match Integer.make? n.width (-n.value) with
    | some m => .ok (.integer m)
    | none => .error .negationOverflow
  | .decimal d => .ok (.decimal d.neg)
  | .float x => .ok (.float (-x))
  | .double x => .ok (.double (-x))
  | v => .error (.negatedType v.type)

/-! ## Comparison -/

/-- The order of two floating-point numbers, none when one of them is not a number. -/
def floatOrder? (left right : Float) : Option Ordering :=
  if left < right then some .lt
  else if left == right then some .eq
  else if right < left then some .gt
  else none

/-- The order of two 32-bit floating-point numbers. -/
def float32Order? (left right : Float32) : Option Ordering :=
  if left < right then some .lt
  else if left == right then some .eq
  else if right < left then some .gt
  else none

/-- The order of two operands, none when it is unknown. Texts are ordered by code points. -/
def Operands.order? : Operands → Option Ordering
  | .null => none
  | .booleans a b => some (Ord.compare a b)
  | .integers _ a b => some (Ord.compare a b)
  | .decimals a b => some (a.compare b)
  | .floats a b => float32Order? a b
  | .doubles a b => floatOrder? a b
  | .texts a b => some (Ord.compare a b)
  | .instants a b => some (a.compare b)

/-- The operator holds of operands in that order. -/
def RelationalOp.holds (op : RelationalOp) (order : Ordering) : Bool :=
  match op with
  | .equal => order == .eq
  | .notEqual => order != .eq
  | .less => order == .lt
  | .lessOrEqual => order != .gt
  | .greater => order == .gt
  | .greaterOrEqual => order != .lt
  | .like => false

/-- Equality of a boolean and a number: a number other than zero counts as true. -/
def booleanNumberEquality? (op : RelationalOp) (left right : Value) : Option Bool :=
  let equality (flag : Bool) (number : Value) : Option Bool :=
    number.toFloat?.map fun x => (flag == (x != 0)) == (op == .equal)
  if op = .equal ∨ op = .notEqual then
    match left, right with
    | .boolean flag, number => equality flag number
    | number, .boolean flag => equality flag number
    | _, _ => none
  else
    none

/-- The wildcard comparison; null is unknown. A date has a text on the left only. -/
def Value.like (left right : Value) : Except Error Truth :=
  if left.isNull || right.isNull then
    .ok none
  else
    let subject? := if left.isDateTime then some left.text else left.toText?
    match subject?, right.toText? with
    | some subject, some pattern => .ok (some (Text.like subject pattern))
    | _, _ => .error (.operandTypes "like" left.type right.type)

/-- Applies a comparison operator. -/
def Value.compare (op : RelationalOp) (left right : Value) : Except Error Truth :=
  if op = .like then
    Value.like left right
  else
    match booleanNumberEquality? op left right with
    | some result => .ok (some result)
    | none => do
      let operands ← Operands.promote op.symbol left right
      pure (operands.order?.map op.holds)

end ObjectQuery

import ObjectQuery.Expr.Evaluation

/-!
Contract: what arithmetic and counting give, and how they fail.

Owns:
- `Delivers`, outcomes of which both the values and the failures are known;
- one lemma for each operation: none of them gives a boolean, and they fail for the types of their
  operands or because there is no number to give.

Does not own: comparisons, and the operands.
-/

namespace ObjectQuery

variable {α β : Type}

/-- The outcome is a value with a property, or an error with a property. -/
inductive Delivers (good : α → Prop) (expected : Error → Prop) : Except Error α → Prop
  | value {value : α} (isGood : good value) : Delivers good expected (.ok value)
  | failure {error : Error} (isExpected : expected error) : Delivers good expected (.error error)

theorem Delivers.bind
    {good : α → Prop}
    {good' : β → Prop}
    {expected : Error → Prop}
    {first : Except Error α}
    {next : α → Except Error β}
    (ofFirst : Delivers good expected first)
    (ofNext : ∀ value, good value → Delivers good' expected (next value)) :
    Delivers good' expected (first >>= next) := by
  cases ofFirst with
  | value isGood => exact ofNext _ isGood
  | failure isExpected => exact .failure isExpected

/-- The value is neither true nor false. -/
def Value.IsScalar (v : Value) : Prop :=
  v.isBoolean = false

/-- An error that the types or the sizes of operands lead to. -/
def Error.IsOfOperands (error : Error) : Prop :=
  error.kind = .typing ∨ error.kind = .arithmetic

/-- The outcome of arithmetic. -/
abbrev IsComputed : Outcome → Prop :=
  Delivers Value.IsScalar Error.IsOfOperands

theorem delivers_promote (operator : String) (left right : Value) :
    Delivers (fun _ => True) Error.IsOfOperands (Operands.promote operator left right) := by
  rw [Operands.promote]
  split
  · exact .value trivial
  · exact .failure (.inl rfl)

/-! ## Numbers that have to fit -/

theorem isComputed_make?
    (width : IntWidth)
    (result : Int)
    (failure : Error)
    (ofOperands : failure.IsOfOperands) :
    IsComputed (match Integer.make? width result with
      | some n => .ok (.integer n)
      | none => .error failure) := by
  split
  · exact .value rfl
  · exact .failure ofOperands

theorem isComputed_decimal
    (result : Option Decimal)
    (failure : Error)
    (ofOperands : failure.IsOfOperands) :
    IsComputed (match result with
      | some d => .ok (.decimal d)
      | none => .error failure) := by
  split
  · exact .value rfl
  · exact .failure ofOperands

theorem isComputed_tallyValueAt (width : IntWidth) (tally : Tally) (count : Nat) :
    IsComputed (tallyValueAt width tally count) :=
  isComputed_make? width count _ (.inr rfl)

theorem isComputed_tallyValue (tally : Tally) (count : Nat) :
    IsComputed (tallyValue tally count) :=
  isComputed_tallyValueAt .w32 tally count

/-! ## Operators -/

theorem isComputed_integerArithmetic
    (op : ArithmeticOp)
    (width : IntWidth)
    (left right : Int) :
    IsComputed (integerArithmetic op width left right) := by
  have fits (result : Int) := isComputed_make? width result (.overflow op.symbol) (.inr rfl)
  cases op with
  | add | subtract | multiply => exact fits _
  | divide =>
    by_cases zero : right = 0
    · rw [integerArithmetic, if_pos zero]
      exact .failure (.inr rfl)
    · rw [integerArithmetic, if_neg zero]
      exact fits _
  | modulo =>
    by_cases zero : right = 0
    · rw [integerArithmetic, if_pos zero]
      exact .failure (.inr rfl)
    · rw [integerArithmetic, if_neg zero]
      by_cases quotientFits : width.Holds (left.tdiv right)
      · rw [if_pos quotientFits]
        exact fits _
      · rw [if_neg quotientFits]
        exact .failure (.inr rfl)

theorem isComputed_decimalArithmetic (op : ArithmeticOp) (left right : Decimal) :
    IsComputed (decimalArithmetic op left right) := by
  cases op with
  | add | subtract | multiply => exact isComputed_decimal _ _ (.inr rfl)
  | divide | modulo =>
    simp only [decimalArithmetic]
    split
    · exact .failure (.inr rfl)
    · exact isComputed_decimal _ _ (.inr rfl)

/-- Arithmetic has no boolean results, and rejects boolean operands. -/
theorem isComputed_arithmetic (op : ArithmeticOp) (left right : Value) :
    IsComputed (Value.arithmetic op left right) := by
  apply (delivers_promote op.symbol left right).bind
  intro operands _
  cases operands with
  | null | floats _ _ | doubles _ _ => exact .value rfl
  | integers width a b => exact isComputed_integerArithmetic op width a b
  | decimals a b => exact isComputed_decimalArithmetic op a b
  | texts a b =>
    by_cases joins : op = .add
    · simp only [if_pos joins]
      exact .value rfl
    · simp only [if_neg joins]
      exact .failure (.inl rfl)
  | booleans _ _ | instants _ _ => exact .failure (.inl rfl)

theorem isComputed_negate (v : Value) : IsComputed v.negate := by
  cases v with
  | null | decimal _ | float _ | double _ => exact .value rfl
  | integer n => exact isComputed_make? n.width (-n.value) _ (.inr rfl)
  | boolean _ | string _ | dateTime _ => exact .failure (.inl rfl)

end ObjectQuery

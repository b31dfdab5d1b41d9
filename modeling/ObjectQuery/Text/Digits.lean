/-!
Contract: rows of decimal digits as natural numbers.

Owns: `digitValue`, `digitsValue`.
-/

namespace ObjectQuery.Text

/-- The number that one digit stands for. -/
def digitValue (c : Char) : Nat :=
  c.toNat - '0'.toNat

/-- The number that a row of digits stands for. -/
def digitsValue (digits : List Char) : Nat :=
  digits.foldl (fun value c => 10 * value + digitValue c) 0

end ObjectQuery.Text

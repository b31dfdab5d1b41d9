import ObjectQuery.Text.Digits

/-!
Contract: the decimal digits of a natural number and the number that a row of digits stands for.

Owns: the bridge to the library's reader of digits, and its bounds.

Does not own: the texts of values.
-/

namespace ObjectQuery.Text

theorem digitsValue_eq_ofDigitChars (digits : List Char) :
    digitsValue digits = Nat.ofDigitChars 10 digits 0 :=
  rfl

@[simp]
theorem digitsValue_toDigits (n : Nat) : digitsValue (Nat.toDigits 10 n) = n := by
  rw [digitsValue_eq_ofDigitChars, Nat.ofDigitChars_ten_toDigits]

theorem isDigit_of_mem_toDigits {n : Nat} {c : Char} (member : c ∈ Nat.toDigits 10 n) :
    c.isDigit = true :=
  Nat.isDigit_of_mem_toDigits (by decide) (by decide) member

/-- Further digits do not make the number smaller. -/
theorem le_ofDigitChars (digits : List Char) (start : Nat) :
    start ≤ Nat.ofDigitChars 10 digits start := by
  have shifted : start ≤ 10 ^ digits.length * start :=
    Nat.le_mul_of_pos_left start (Nat.pow_pos (by decide))
  rw [Nat.ofDigitChars_eq_ofDigitChars_zero]
  omega

theorem ofDigitChars_take_le (digits : List Char) (count : Nat) :
    Nat.ofDigitChars 10 (digits.take count) 0 ≤ Nat.ofDigitChars 10 digits 0 := by
  calc
    Nat.ofDigitChars 10 (digits.take count) 0
      ≤ Nat.ofDigitChars 10 (digits.drop count) (Nat.ofDigitChars 10 (digits.take count) 0) :=
        le_ofDigitChars _ _
    _ = Nat.ofDigitChars 10 digits 0 := by
        rw [← Nat.ofDigitChars_append, List.take_append_drop]

end ObjectQuery.Text

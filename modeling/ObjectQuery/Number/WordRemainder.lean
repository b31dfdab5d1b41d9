import ObjectQuery.Number.Power

/-!
Contract: the remainder of a long division in words of 32 bits by a divisor of three words.

The dividend is taken in from the top, one word at a time. The quotient digit of a window is
estimated from the window's words above the lower two and the divisor's top word, and is then kept
in a single word. An estimate of `2 ^ 32` or more loses its carry, which leaves the window too
great by the lost multiple of the divisor's lower words.

Owns:
- `windowRemainder`, one step, which is exact where the estimate fits in a word;
- `wordRemainder`, the whole division.

Does not own: the divisors that this division is used for.
-/

namespace ObjectQuery

/-- What a window leaves over. The divisor is `2 ^ 95` or more and below `2 ^ 96`. -/
def windowRemainder (divisor window : Nat) : Nat :=
  if window / 2 ^ 64 / (divisor / 2 ^ 64) < 2 ^ 32 then
    window % divisor
  else
    (window + 2 ^ 32 * (divisor % 2 ^ 64)) % divisor

/-- What a dividend of so many words leaves over, taken in one word at a time from the top. -/
def wordsRemainder (divisor : Nat) : Nat → Nat → Nat
  | 0, _ => 0
  | words + 1, dividend =>
    windowRemainder divisor
      (wordsRemainder divisor words (dividend / 2 ^ 32) * 2 ^ 32 + dividend % 2 ^ 32)

/-- How far a divisor of three words has to be shifted for its top bit to be set. -/
def leadingZeros (divisor : Nat) : Nat :=
  95 - divisor.log2

/-- The remainder of `dividend` by a divisor from `2 ^ 64` up to `2 ^ 96`: both are shifted until
the divisor's top bit is set, and the remainder is shifted back. -/
def wordRemainder (dividend divisor : Nat) : Nat :=
  let unit := 2 ^ leadingZeros divisor
  wordsRemainder (divisor * unit) ((dividend * unit).log2 / 32 + 1) (dividend * unit) / unit

end ObjectQuery

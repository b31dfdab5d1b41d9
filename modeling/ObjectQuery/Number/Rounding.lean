/-!
Contract: division of natural numbers with the quotient rounded to nearest, a half going to the
even neighbour.

Owns: `divideHalfEven`.
-/

namespace ObjectQuery

/-- `numerator / denominator` to the nearest integer, a half to the even one. -/
def divideHalfEven (numerator denominator : Nat) : Nat :=
  let quotient := numerator / denominator
  let doubled := 2 * (numerator % denominator)
  if doubled < denominator then quotient
  else if denominator < doubled then quotient + 1
  else if quotient % 2 = 0 then quotient
  else quotient + 1

end ObjectQuery

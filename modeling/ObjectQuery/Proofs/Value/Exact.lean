import ObjectQuery.Value.Operators
import Mathlib.Algebra.Order.Field.Basic
import Mathlib.Algebra.Order.Ring.Cast
import Mathlib.Data.Rat.Cast.Order
import Mathlib.Order.Compare

/-!
Contract: integers and decimals as exact rational numbers.

Floating-point numbers are the only numbers without an exact value here. Below them the ladder of
numbers loses nothing: a number keeps its value on every higher rung up to the decimals, and two
numbers that have met on one rung are in the order of their values.

Owns: the exact value of a number, and the order of two numbers that have one.

Does not own: the operators of comparison.
-/

namespace ObjectQuery

/-! ## Decimals -/

namespace Decimal

/-- The number that the decimal stands for. -/
def toRat (x : Decimal) : ℚ :=
  x.numerator / ((10 ^ x.scale : Nat) : ℚ)

/-- At the product of two denominators the numerators are the ones that are compared. -/
theorem toRat_mul_scales (x y : Decimal) :
    x.toRat * (((10 ^ x.scale : Nat) : ℚ) * ((10 ^ y.scale : Nat) : ℚ)) =
      ((x.numerator * 10 ^ y.scale : Int) : ℚ) := by
  have nonzero : ((10 ^ x.scale : Nat) : ℚ) ≠ 0 :=
    Nat.cast_ne_zero.mpr (Nat.pow_pos (by decide)).ne'
  rw [toRat, ← mul_assoc, div_mul_cancel₀ _ nonzero, Int.cast_mul, ← Int.cast_natCast,
    Int.natCast_pow]
  rfl

theorem compare_eq_cmp (x y : Decimal) : x.compare y = cmp x.toRat y.toRat := by
  have positive (scale : Nat) : (0 : ℚ) < ((10 ^ scale : Nat) : ℚ) :=
    Nat.cast_pos.mpr (Nat.pow_pos (by decide))
  calc x.compare y
      = cmp (x.numerator * 10 ^ y.scale) (y.numerator * 10 ^ x.scale) :=
        (cmp_eq_compare _ _).symm
    _ = cmp ((x.numerator * 10 ^ y.scale : Int) : ℚ) ((y.numerator * 10 ^ x.scale : Int) : ℚ) :=
        (Int.cast_strictMono.cmp_map_eq _ _).symm
    _ = cmp x.toRat y.toRat := by
        rw [← toRat_mul_scales x y, ← toRat_mul_scales y x,
          mul_comm ((10 ^ y.scale : Nat) : ℚ),
          cmp_mul_pos_right (mul_pos (positive _) (positive _))]

theorem toRat_ofInt (n : Int) (small : n.natAbs < 2 ^ 96) : (ofInt n small).toRat = n := by
  have sameNumerator : (ofInt n small).numerator = n := by
    simp only [numerator, ofInt, decide_eq_true_eq]
    omega
  rw [toRat, sameNumerator]
  simp [ofInt]

end Decimal

/-! ## Values -/

namespace Value

/-- The exact number that an integer or a decimal stands for. -/
def rational? : Value → Option ℚ
  | .integer n => some n.value
  | .decimal d => some d.toRat
  | _ => none

/-- A number of a binary floating-point type. -/
def isFloating : Value → Bool
  | .float _ | .double _ => true
  | _ => false

/-- The numbers that are not floating-point numbers are the exact ones. -/
theorem rank?_eq_none_of_rational?_eq_none
    {v : Value}
    (notFloating : v.isFloating = false)
    (notRational : v.rational? = none) :
    v.rank? = none := by
  cases v with
  | integer _ | decimal _ => cases notRational
  | float _ | double _ => cases notFloating
  | _ => rfl

/-- An exact number stands on a rung that is not above the decimals. -/
theorem exists_rank_of_rational?
    {v : Value}
    {x : ℚ}
    (isRational : v.rational? = some x) :
    ∃ rank, v.rank? = some rank ∧ rank.level ≤ Rank.decimal.level := by
  cases v with
  | integer n => exact ⟨.integer n.width, rfl, by cases n.width <;> decide⟩
  | decimal _ => exact ⟨.decimal, rfl, le_rfl⟩
  | _ => cases isRational

/-- An exact number keeps its value on every higher rung up to the decimals. -/
theorem widen?_of_rational?
    {v : Value}
    {x : ℚ}
    {own rank : Rank}
    (isRational : v.rational? = some x)
    (stands : v.rank? = some own)
    (higher : own.level ≤ rank.level)
    (bounded : rank.level ≤ Rank.decimal.level) :
    ∃ w, v.widen? rank = some w ∧ w.rational? = some x ∧ w.rank? = some rank := by
  cases v with
  | integer n =>
    cases stands
    cases rank with
    | integer width =>
      have wider : n.width.level ≤ width.level := higher
      have fits : width.Holds n.value := by
        have greater := IntWidth.bound_le_of_level_le wider
        have range := n.inRange
        unfold IntWidth.Holds at range ⊢
        omega
      refine ⟨.integer ⟨width, n.value, fits⟩, ?_, isRational, rfl⟩
      rw [widen?, if_pos wider, Integer.widen?, Integer.make?, dif_pos fits, Option.map_some]
    | decimal =>
      refine ⟨.decimal (Decimal.ofInt n.value n.natAbs_lt), rfl, ?_, rfl⟩
      rw [← isRational, rational?, rational?, Decimal.toRat_ofInt]
    | float | double => exact absurd bounded (by decide)
  | decimal d =>
    cases stands
    cases rank with
    | integer width => exact absurd higher (by cases width <;> decide)
    | decimal => exact ⟨.decimal d, rfl, isRational, rfl⟩
    | float | double => exact absurd bounded (by decide)
  | _ => cases isRational

end Value

/-! ## Two numbers -/

namespace Rank

theorem level_le_max (x y : Rank) : x.level ≤ (x.max y).level ∧ y.level ≤ (x.max y).level := by
  rw [max]
  split <;> omega

theorem max_level_le {x y : Rank} {height : Nat} (left : x.level ≤ height)
    (right : y.level ≤ height) : (x.max y).level ≤ height := by
  rw [max]
  split <;> assumption

end Rank

namespace Operands

variable {left right : Value} {x y : ℚ}

/-- Two exact numbers on one rung are in the order of their values. -/
theorem order?_ofSameRung
    (leftRational : left.rational? = some x)
    (rightRational : right.rational? = some y)
    (sameRung : left.rank? = right.rank?) :
    (ofSameRung left right).map order? = some (some (cmp x y)) := by
  cases left with
  | integer m =>
    cases right with
    | integer n =>
      have sameWidth : m.width = n.width := by simpa [Value.rank?] using sameRung
      cases leftRational
      cases rightRational
      rw [ofSameRung, if_pos sameWidth, Option.map_some, order?, Int.cast_strictMono.cmp_map_eq,
        cmp_eq_compare]
    | decimal _ => cases sameRung
    | _ => cases rightRational
  | decimal d =>
    cases right with
    | decimal e =>
      cases leftRational
      cases rightRational
      rw [ofSameRung, Option.map_some, order?, Decimal.compare_eq_cmp]
    | integer _ => cases sameRung
    | _ => cases rightRational
  | _ => cases leftRational

/-- Exact numbers of any two types are compared as the numbers that they stand for. -/
theorem order?_ofNumbers
    (leftRational : left.rational? = some x)
    (rightRational : right.rational? = some y) :
    (ofNumbers left right).map order? = some (some (cmp x y)) := by
  obtain ⟨leftRank, leftStands, leftBounded⟩ := Value.exists_rank_of_rational? leftRational
  obtain ⟨rightRank, rightStands, rightBounded⟩ := Value.exists_rank_of_rational? rightRational
  have higher := Rank.level_le_max leftRank rightRank
  have bounded := Rank.max_level_le leftBounded rightBounded
  obtain ⟨wideLeft, leftWidened, leftKept, leftRung⟩ :=
    Value.widen?_of_rational? leftRational leftStands higher.1 bounded
  obtain ⟨wideRight, rightWidened, rightKept, rightRung⟩ :=
    Value.widen?_of_rational? rightRational rightStands higher.2 bounded
  have met : ofNumbers left right = ofSameRung wideLeft wideRight := by
    simp only [ofNumbers, leftStands, rightStands, leftWidened, rightWidened,
      Option.bind_eq_bind, Option.bind_some]
  rw [met, order?_ofSameRung leftKept rightKept (leftRung.trans rightRung.symm)]

/-- A value without a rung meets no number. -/
theorem ofNumbers_eq_none
    (noRank : left.rank? = none ∨ right.rank? = none) :
    ofNumbers left right = none := by
  rcases noRank with missing | missing
  · rw [ofNumbers, missing]
    rfl
  · rw [ofNumbers, missing]
    cases left.rank? <;> rfl

end Operands

end ObjectQuery

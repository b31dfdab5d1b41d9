import ObjectQuery.Expr.Evaluation
import ObjectQuery.Proofs.Success
import ObjectQuery.Proofs.Text.Words
import ObjectQuery.Proofs.Value.Comparison

/-!
Contract: arithmetic of integers.

Two integers meet at the wider of their widths. What is computed there is the exact result or an
arithmetic error, so that nothing wraps. Of a remainder the width has to hold the quotient as well.

Owns:
- `CutDivision`, division with the quotient cut toward zero, and `ExactResult`;
- `ComesTo`, outcomes that are an exact result or an arithmetic error;
- that the operators, negation and the absolute value come to their exact results.

Does not own: other numbers.
-/

namespace ObjectQuery

/-! ## Widths -/

/-- The wider of two widths. -/
def IntWidth.wider (x y : IntWidth) : IntWidth :=
  if x.level ≤ y.level then y else x

theorem Rank.max_integer (x y : IntWidth) :
    (Rank.integer x).max (.integer y) = .integer (x.wider y) := by
  unfold Rank.max IntWidth.wider
  show (if x.level ≤ y.level then Rank.integer y else .integer x) = _
  by_cases ordered : x.level ≤ y.level
  · rw [if_pos ordered, if_pos ordered]
  · rw [if_neg ordered, if_neg ordered]

theorem IntWidth.level_le_wider (x y : IntWidth) :
    x.level ≤ (x.wider y).level ∧ y.level ≤ (x.wider y).level := by
  unfold wider
  by_cases ordered : x.level ≤ y.level
  · rw [if_pos ordered]
    omega
  · rw [if_neg ordered]
    omega

/-- An integer keeps its value at a width that is not narrower. -/
theorem Value.widen?_integer
    {width : IntWidth}
    {n : Integer}
    (wider : n.width.level ≤ width.level) :
    ∃ fits, (Value.integer n).widen? (.integer width) = some (.integer ⟨width, n.value, fits⟩) := by
  have greater := IntWidth.bound_le_of_level_le wider
  have range := n.inRange
  have fits : width.Holds n.value := by
    unfold IntWidth.Holds at range ⊢
    omega
  refine ⟨fits, ?_⟩
  rw [widen?, if_pos wider, Integer.widen?, Integer.make?, dif_pos fits, Option.map_some]

/-- Two integers are promoted to the wider of their widths. -/
theorem Operands.promote_integers (operator : String) (m n : Integer) :
    promote operator (.integer m) (.integer n) =
      .ok (.integers (m.width.wider n.width) m.value n.value) := by
  have ordered := m.width.level_le_wider n.width
  obtain ⟨leftFits, left⟩ := Value.widen?_integer ordered.1
  obtain ⟨rightFits, right⟩ := Value.widen?_integer ordered.2
  have met : ofNumbers (.integer m) (.integer n) =
      some (.integers (m.width.wider n.width) m.value n.value) := by
    simp only [ofNumbers, Value.rank?, Option.bind_eq_bind, Option.bind_some, Rank.max_integer,
      left, right, ofSameRung, if_true]
  rw [promote, show promote? (.integer m) (.integer n) = ofNumbers (.integer m) (.integer n) from rfl,
    met]

/-! ## Exact results -/

/-- Division with the quotient cut toward zero: what remains is smaller than the divisor and has the
sign of the dividend, if any. -/
structure CutDivision (dividend divisor quotient remainder : Int) : Prop where
  whole : remainder + divisor * quotient = dividend
  smaller : remainder.natAbs < divisor.natAbs
  nonneg : 0 ≤ dividend → 0 ≤ remainder
  nonpos : dividend ≤ 0 → remainder ≤ 0

/-- There is such a division by every divisor but zero, and only one. -/
theorem cutDivision_iff {dividend divisor quotient remainder : Int} :
    CutDivision dividend divisor quotient remainder ↔
      divisor ≠ 0 ∧ dividend.tdiv divisor = quotient ∧ dividend.tmod divisor = remainder := by
  constructor
  · intro division
    have whole := division.whole
    have smaller := division.smaller
    have nonzero : divisor ≠ 0 := by omega
    refine ⟨nonzero, ?_⟩
    by_cases positive : 0 ≤ dividend
    · have nonneg := division.nonneg positive
      apply (Int.tdiv_tmod_unique positive nonzero).mpr
      omega
    · have nonpos := division.nonpos (by omega)
      apply (Int.tdiv_tmod_unique' (by omega) nonzero).mpr
      omega
  · rintro ⟨nonzero, rfl, rfl⟩
    have opposite : (-dividend).tmod divisor = -dividend.tmod divisor := Int.neg_tmod ..
    refine ⟨Int.tmod_add_mul_tdiv dividend divisor, ?_, Int.tmod_nonneg divisor, ?_⟩
    · rw [Int.natAbs_tmod]
      exact Nat.mod_lt _ (by omega)
    · intro negative
      have := Int.tmod_nonneg divisor (show 0 ≤ -dividend by omega)
      omega

theorem not_cutDivision_zero {dividend quotient remainder : Int} :
    ¬CutDivision dividend 0 quotient remainder :=
  fun division => (cutDivision_iff.mp division).1 rfl

/-- What an operator gives for two integers, where a width holds it. Of a remainder the width has to
hold the quotient as well. -/
def ExactResult
    (width : IntWidth)
    (op : ArithmeticOp)
    (left right result : Int) : Prop :=
  width.Holds result ∧
    match op with
    | .add => result = left + right
    | .subtract => result = left - right
    | .multiply => result = left * right
    | .divide => ∃ remainder, CutDivision left right result remainder
    | .modulo => ∃ quotient, CutDivision left right quotient result ∧ width.Holds quotient

/-- The outcome is the exact result as an integer of the width, or an arithmetic error where there is
none. -/
def ComesTo (width : IntWidth) (exact : Int → Prop) (outcome : Outcome) : Prop :=
  (∀ result, exact result → ∃ fits, outcome = .ok (.integer ⟨width, result, fits⟩)) ∧
    ((∀ result, ¬exact result) → ∃ error, outcome = .error error ∧ error.kind = .arithmetic)

section

variable {width : IntWidth} {exact : Int → Prop} {failure : Error}
  (isArithmetic : failure.kind = .arithmetic)

include isArithmetic

theorem comesTo_error (absent : ∀ result, ¬exact result) : ComesTo width exact (.error failure) :=
  ⟨fun result isExact => absurd isExact (absent result), fun _ => ⟨failure, rfl, isArithmetic⟩⟩

/-- A number that is given where it fits. -/
theorem comesTo_make?
    {number : Int}
    (only : ∀ result, exact result ↔ width.Holds result ∧ result = number) :
    ComesTo width exact (match Integer.make? width number with
      | some n => .ok (.integer n)
      | none => .error failure) := by
  by_cases fits : width.Holds number
  · rw [Integer.make?, dif_pos fits]
    constructor
    · intro result isExact
      obtain ⟨_, rfl⟩ := (only result).mp isExact
      exact ⟨fits, rfl⟩
    · intro absent
      exact absurd ((only number).mpr ⟨fits, rfl⟩) (absent number)
  · rw [Integer.make?_eq_none_iff.mpr fits]
    apply comesTo_error isArithmetic
    intro result isExact
    obtain ⟨holds, rfl⟩ := (only result).mp isExact
    exact fits holds

end

/-! ## Operators -/

/-- An operator gives what it computes where that fits; a division first asks for a divisor, and a
remainder for the quotient. -/
theorem comesTo_integerArithmetic
    (op : ArithmeticOp)
    (width : IntWidth)
    (left right : Int) :
    ComesTo width (ExactResult width op left right) (integerArithmetic op width left right) := by
  cases op with
  | add | subtract | multiply => exact comesTo_make? rfl fun _ => Iff.rfl
  | divide =>
    by_cases zero : right = 0
    · rw [integerArithmetic, if_pos zero]
      apply comesTo_error rfl
      rintro result ⟨_, remainder, division⟩
      exact not_cutDivision_zero (zero ▸ division)
    · rw [integerArithmetic, if_neg zero]
      apply comesTo_make? rfl
      intro result
      apply and_congr_right
      intro _
      constructor
      · rintro ⟨remainder, division⟩
        exact (cutDivision_iff.mp division).2.1.symm
      · rintro rfl
        exact ⟨left.tmod right, cutDivision_iff.mpr ⟨zero, rfl, rfl⟩⟩
  | modulo =>
    have quotient_eq {quotient remainder : Int}
        (division : CutDivision left right quotient remainder) : left.tdiv right = quotient :=
      (cutDivision_iff.mp division).2.1
    by_cases zero : right = 0
    · rw [integerArithmetic, if_pos zero]
      apply comesTo_error rfl
      rintro result ⟨_, quotient, division, _⟩
      exact not_cutDivision_zero (zero ▸ division)
    · rw [integerArithmetic, if_neg zero]
      by_cases quotientFits : width.Holds (left.tdiv right)
      · rw [if_pos quotientFits]
        apply comesTo_make? rfl
        intro result
        apply and_congr_right
        intro _
        constructor
        · rintro ⟨quotient, division, _⟩
          exact (cutDivision_iff.mp division).2.2.symm
        · rintro rfl
          exact ⟨_, cutDivision_iff.mpr ⟨zero, rfl, rfl⟩, quotientFits⟩
      · rw [if_neg quotientFits]
        apply comesTo_error rfl
        rintro result ⟨_, quotient, division, holds⟩
        exact quotientFits (quotient_eq division ▸ holds)

/-- Two integers of any widths. -/
theorem comesTo_arithmetic (op : ArithmeticOp) (m n : Integer) :
    ComesTo (m.width.wider n.width) (ExactResult (m.width.wider n.width) op m.value n.value)
      (Value.arithmetic op (.integer m) (.integer n)) := by
  rw [Value.arithmetic, Operands.promote_integers, ok_bind]
  exact comesTo_integerArithmetic op _ m.value n.value

/-- Only the opposite of the least integer of a width does not fit. -/
theorem Integer.holds_neg_iff (n : Integer) :
    n.width.Holds (-n.value) ↔ n.value ≠ -n.width.bound := by
  have range := n.inRange
  unfold IntWidth.Holds at range ⊢
  omega

theorem comesTo_negate (n : Integer) :
    ComesTo n.width (fun result => n.value ≠ -n.width.bound ∧ result = -n.value)
      (Value.integer n).negate := by
  apply comesTo_make? rfl
  intro result
  constructor
  · rintro ⟨notLeast, rfl⟩
    exact ⟨n.holds_neg_iff.mpr notLeast, rfl⟩
  · rintro ⟨fits, rfl⟩
    exact ⟨n.holds_neg_iff.mp fits, rfl⟩

/-- The sign is asked of the number itself, whatever its width. -/
theorem compare_integer_less_zero (n : Integer) (fits : IntWidth.w8.Holds 0) :
    Value.compare .less (.integer n) (.integer ⟨.w8, 0, fits⟩) =
      .ok (some (decide (n.value < 0))) := by
  rw [Value.compare_of_rational (by decide) (x := n.value) (y := 0) rfl rfl]
  simp [RelationalOp.onRationals]

/-- The size of an integer is its opposite if it is negative. -/
theorem comesTo_absolute (function : String) (n : Integer) :
    ComesTo n.width (fun result => n.value ≠ -n.width.bound ∧ result = n.value.natAbs)
      (absolute function (.integer n)) := by
  have unfolded : absolute function (.integer n) =
      if n.value < 0 then (Value.integer n).negate else .ok (.integer n) := by
    show (Value.compare .less _ _ >>= _) = _
    rw [compare_integer_less_zero, ok_bind]
    by_cases negative : n.value < 0 <;> simp [negative]
  rw [unfolded]
  by_cases negative : n.value < 0
  · rw [if_pos negative]
    have same : (fun result => n.value ≠ -n.width.bound ∧ result = (n.value.natAbs : Int)) =
        fun result => n.value ≠ -n.width.bound ∧ result = -n.value := by
      funext result
      rw [Int.ofNat_natAbs_of_nonpos (by omega)]
    rw [same]
    exact comesTo_negate n
  · rw [if_neg negative]
    have range := n.inRange
    unfold IntWidth.Holds at range
    constructor
    · rintro result ⟨_, rfl⟩
      have same : (n.value.natAbs : Int) = n.value := Int.natAbs_of_nonneg (by omega)
      rw [same]
      exact ⟨n.inRange, rfl⟩
    · intro absent
      exact absurd ⟨by omega, rfl⟩ (absent n.value.natAbs)

theorem evaluateAt_abs
    {function : String}
    (isAbs : function.toLower = "abs")
    {store : Store}
    {root : Nat}
    {operand : Expr}
    {v : Value}
    (evaluated : operand.evaluateAt store root = .ok v) :
    (Expr.call function [operand]).evaluateAt store root = absolute function v := by
  simp [Expr.evaluateAt, Expr.evaluateEach, evaluated, applyFunction, isAbs, allValues, Except.map]

/-- Integers of any widths are computed exactly at the wider one, or there is an arithmetic error:
when the divisor is zero, or when the width does not hold the result or, of a remainder, the
quotient. The opposite and the size of an integer are exact but for the least one of its width. -/
theorem integers_exact (op : ArithmeticOp) (m n : Integer) :
    ComesTo (m.width.wider n.width) (ExactResult (m.width.wider n.width) op m.value n.value)
      (Value.arithmetic op (.integer m) (.integer n)) ∧
    ComesTo n.width (fun result => n.value ≠ -n.width.bound ∧ result = -n.value)
      (Value.integer n).negate ∧
    ∀ (function : String) (store : Store) (root : Nat) (operand : Expr),
      function.toLower = "abs" → operand.evaluateAt store root = .ok (.integer n) →
        ComesTo n.width (fun result => n.value ≠ -n.width.bound ∧ result = n.value.natAbs)
          ((Expr.call function [operand]).evaluateAt store root) := by
  refine ⟨comesTo_arithmetic op m n, comesTo_negate n, ?_⟩
  intro function store root operand isAbs evaluated
  rw [evaluateAt_abs isAbs evaluated]
  exact comesTo_absolute function n

/-- The least integer of 16 bits has no remainder by -1, which has 8 bits, because their quotient
does not fit; the size of -1 is 1. -/
theorem integers_exact_least :
    let least : Integer := ⟨.w16, -32768, by decide⟩
    let one : Integer := ⟨.w8, -1, by decide⟩
    (∃ error, Value.arithmetic .modulo (.integer least) (.integer one) = .error error ∧
      error.kind = .arithmetic) ∧
    "ABS".toLower = "abs" ∧
    (Expr.literal (.integer one)).evaluateAt .empty 0 = .ok (.integer one) ∧
    ∃ fits, (Expr.call "ABS" [.literal (.integer one)]).evaluateAt .empty 0 =
      .ok (.integer ⟨.w8, 1, fits⟩) := by
  intro least one
  obtain ⟨⟨_, fails⟩, _, size⟩ := integers_exact .modulo least one
  have isAbs : "ABS".toLower = "abs" := Text.toLower_eq (by decide)
  have evaluated : (Expr.literal (.integer one)).evaluateAt .empty 0 = .ok (.integer one) := rfl
  refine ⟨fails ?_, isAbs, evaluated, (size "ABS" .empty 0 _ isAbs evaluated).1 1 (by decide)⟩
  rintro result ⟨_, quotient, division, fits⟩
  obtain ⟨_, rfl, _⟩ := cutDivision_iff.mp division
  exact absurd fits (by decide)

end ObjectQuery

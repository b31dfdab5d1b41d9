import Mathlib.Tactic.NormNum
import ObjectQuery.Proofs.Value.Exact

/-!
Contract: the laws of the six operators that compare by order.

Two values are compared by their order at a common type, apart from a boolean beside a number, which
only equality takes. Both ways respect exchanged operands and the opposite operator, so that a
comparison can be turned around or negated. Integers and decimals are ordered as the numbers that
they stand for.

Owns: the mirrored and the opposite operator, and the laws of comparison.

Does not own: the wildcard comparison, and the order of floating-point numbers.
-/

namespace ObjectQuery

/-! ## Operators -/

namespace RelationalOp

/-- The operator for exchanged operands. -/
def mirrored : RelationalOp → RelationalOp
  | .less => .greater
  | .lessOrEqual => .greaterOrEqual
  | .greater => .less
  | .greaterOrEqual => .lessOrEqual
  | op => op

/-- The operator that holds of an order just when this one does not; `like` has none. -/
def negated : RelationalOp → RelationalOp
  | .equal => .notEqual
  | .notEqual => .equal
  | .less => .greaterOrEqual
  | .lessOrEqual => .greater
  | .greater => .lessOrEqual
  | .greaterOrEqual => .less
  | .like => .like

/-- The relation of two numbers that the operator stands for. -/
def onRationals (op : RelationalOp) (x y : ℚ) : Bool :=
  match op with
  | .equal => x = y
  | .notEqual => x ≠ y
  | .less => x < y
  | .lessOrEqual => x ≤ y
  | .greater => y < x
  | .greaterOrEqual => y ≤ x
  | .like => false

theorem mirrored_ne_like {op : RelationalOp} (notLike : op ≠ .like) : op.mirrored ≠ .like := by
  cases op with
  | like => exact absurd rfl notLike
  | _ => exact RelationalOp.noConfusion

theorem negated_ne_like {op : RelationalOp} (notLike : op ≠ .like) : op.negated ≠ .like := by
  cases op with
  | like => exact absurd rfl notLike
  | _ => exact RelationalOp.noConfusion

theorem holds_mirrored (op : RelationalOp) (order : Ordering) :
    op.mirrored.holds order.swap = op.holds order := by
  cases op <;> cases order <;> rfl

theorem holds_negated {op : RelationalOp} (notLike : op ≠ .like) (order : Ordering) :
    op.negated.holds order = !op.holds order := by
  cases op with
  | like => exact absurd rfl notLike
  | _ => cases order <;> rfl

theorem holds_cmp (op : RelationalOp) (x y : ℚ) : op.holds (cmp x y) = op.onRationals x y := by
  rcases lt_trichotomy x y with less | rfl | greater
  · rw [(cmp_eq_lt_iff x y).mpr less]
    cases op <;> simp [holds, onRationals, less, less.le, less.ne, less.not_gt]
  · rw [cmp_self_eq_eq]
    cases op <;> simp [holds, onRationals]
  · rw [(cmp_eq_gt_iff x y).mpr greater]
    cases op <;> simp [holds, onRationals, greater, greater.le, greater.ne', greater.not_gt]

end RelationalOp

/-! ## A boolean beside a number -/

theorem booleanNumberEquality?_mirrored (op : RelationalOp) (left right : Value) :
    booleanNumberEquality? op.mirrored right left = booleanNumberEquality? op left right := by
  cases op with
  | equal | notEqual => cases left <;> cases right <;> rfl
  | _ => rfl

theorem booleanNumberEquality?_negated (op : RelationalOp) (left right : Value) :
    booleanNumberEquality? op.negated left right =
      (booleanNumberEquality? op left right).map (!·) := by
  have opposite : (RelationalOp.notEqual == RelationalOp.equal) = false := rfl
  cases op with
  | equal | notEqual =>
    cases left <;> cases right <;>
      simp [booleanNumberEquality?, RelationalOp.negated, Value.toFloat?, opposite]
  | _ => rfl

/-! ## The order of two values -/

namespace Value

variable {left right : Value} {x y : ℚ}

/-- The order of two values at their common type, none without one. It is unknown beside a null. -/
def order? (left right : Value) : Option (Option Ordering) :=
  (Operands.promote? left right).map Operands.order?

/-- Exact numbers have the order of what they stand for. -/
theorem order?_of_rational
    (leftRational : left.rational? = some x)
    (rightRational : right.rational? = some y) :
    order? left right = some (some (cmp x y)) := by
  rw [← Operands.order?_ofNumbers leftRational rightRational]
  cases left with
  | integer _ | decimal _ =>
    cases right with
    | integer _ | decimal _ => rfl
    | _ => cases rightRational
  | _ => cases leftRational

/-- Two values that are both read as another type have the opposite order when exchanged, if the
other type has such an order. -/
theorem order?_read_swap
    {α : Type}
    {read? : Value → Option α}
    {operands : α → α → Operands}
    (swaps : ∀ a b, (operands b a).order? = (operands a b).order?.map Ordering.swap) :
    (do pure (operands (← read? right) (← read? left))).map Operands.order? =
      ((do pure (operands (← read? left) (← read? right))).map Operands.order?).map
        (Option.map Ordering.swap) := by
  cases read? left with
  | none => cases read? right <;> rfl
  | some a =>
    cases read? right with
    | none => rfl
    | some b => exact congrArg some (swaps a b)

theorem order?_ofNumbers_swap
    (leftNotFloating : left.isFloating = false)
    (rightNotFloating : right.isFloating = false) :
    (Operands.ofNumbers right left).map Operands.order? =
      ((Operands.ofNumbers left right).map Operands.order?).map (Option.map Ordering.swap) := by
  cases leftRational : left.rational? with
  | none =>
    have noRank := rank?_eq_none_of_rational?_eq_none leftNotFloating leftRational
    rw [Operands.ofNumbers_eq_none (.inl noRank), Operands.ofNumbers_eq_none (.inr noRank)]
    rfl
  | some x =>
    cases rightRational : right.rational? with
    | none =>
      have noRank := rank?_eq_none_of_rational?_eq_none rightNotFloating rightRational
      rw [Operands.ofNumbers_eq_none (.inl noRank), Operands.ofNumbers_eq_none (.inr noRank)]
      rfl
    | some y =>
      rw [Operands.order?_ofNumbers leftRational rightRational,
        Operands.order?_ofNumbers rightRational leftRational, ← cmp_swap x y]
      rfl

/-- Exchanged values have the opposite order, and a common type just when they had one before. -/
theorem order?_swap
    (leftNotFloating : left.isFloating = false)
    (rightNotFloating : right.isFloating = false) :
    order? right left = (order? left right).map (Option.map Ordering.swap) := by
  simp only [order?, Operands.promote?, Bool.or_comm right.isNull, Bool.or_comm right.isDateTime,
    Bool.or_comm right.isString]
  split_ifs with isNull isDateTime isString
  · rfl
  · exact order?_read_swap fun a b => congrArg some (Std.OrientedOrd.eq_swap (a := b.fields))
  · exact order?_read_swap fun a b => congrArg some (Std.OrientedOrd.eq_swap (a := b))
  · -- Booleans meet only each other, whatever else is left has to be a number.
    have numbers := order?_ofNumbers_swap leftNotFloating rightNotFloating
    cases left with
    | boolean a =>
      cases right with
      | boolean b => exact congrArg (some ∘ some) Std.OrientedOrd.eq_swap
      | _ => exact numbers
    | _ =>
      cases right <;> exact numbers

/-! ## Comparison -/

/-- The truth of a comparison by order, none if the two values cannot be compared. -/
def comparison? (op : RelationalOp) (left right : Value) : Option Truth :=
  match booleanNumberEquality? op left right with
  | some result => some (some result)
  | none => (order? left right).map (Option.map op.holds)

/-- A comparison by order has a truth, or fails for the types of its operands. -/
theorem compare_eq_comparison? {op : RelationalOp} (notLike : op ≠ .like) (left right : Value) :
    compare op left right =
      match comparison? op left right with
      | some truth => .ok truth
      | none => .error (.operandTypes op.symbol left.type right.type) := by
  rw [compare, if_neg notLike, comparison?]
  cases booleanNumberEquality? op left right with
  | some result => rfl
  | none =>
    rw [order?, Operands.promote]
    cases Operands.promote? left right <;> rfl

theorem comparison?_mirrored
    (op : RelationalOp)
    (leftNotFloating : left.isFloating = false)
    (rightNotFloating : right.isFloating = false) :
    comparison? op.mirrored right left = comparison? op left right := by
  have holds : Option.map op.mirrored.holds ∘ Option.map Ordering.swap = Option.map op.holds := by
    funext order
    cases order with
    | none => rfl
    | some order => exact congrArg some (op.holds_mirrored order)
  rw [comparison?, comparison?, booleanNumberEquality?_mirrored,
    order?_swap leftNotFloating rightNotFloating, Option.map_map, holds]

theorem comparison?_negated {op : RelationalOp} (notLike : op ≠ .like) (left right : Value) :
    comparison? op.negated left right = (comparison? op left right).map Truth.not := by
  have holds : Option.map op.negated.holds = Truth.not ∘ Option.map op.holds := by
    funext order
    cases order with
    | none => rfl
    | some order => exact congrArg some (RelationalOp.holds_negated notLike order)
  rw [comparison?, comparison?, booleanNumberEquality?_negated, holds, ← Option.map_map]
  cases booleanNumberEquality? op left right <;> rfl

theorem comparison?_of_rational
    (op : RelationalOp)
    (leftRational : left.rational? = some x)
    (rightRational : right.rational? = some y) :
    comparison? op left right = some (some (op.onRationals x y)) := by
  have noBoolean : booleanNumberEquality? op left right = none := by
    cases left with
    | integer _ | decimal _ =>
      cases right with
      | integer _ | decimal _ => cases op <;> rfl
      | _ => cases rightRational
    | _ => cases leftRational
  rw [comparison?, noBoolean, order?_of_rational leftRational rightRational, ← op.holds_cmp]
  rfl

/-- Integers and decimals are compared as the numbers that they stand for. -/
theorem compare_of_rational
    {op : RelationalOp}
    (notLike : op ≠ .like)
    (leftRational : left.rational? = some x)
    (rightRational : right.rational? = some y) :
    compare op left right = .ok (some (op.onRationals x y)) := by
  rw [compare_eq_comparison? notLike, comparison?_of_rational op leftRational rightRational]

/-- The first value is found to be at most the second. -/
def AtMost (left right : Value) : Prop :=
  compare .lessOrEqual left right = .ok (some true)

theorem atMost_iff_of_rational
    (leftRational : left.rational? = some x)
    (rightRational : right.rational? = some y) :
    AtMost left right ↔ x ≤ y := by
  rw [AtMost, compare_of_rational (by decide) leftRational rightRational]
  simp [RelationalOp.onRationals]

/-- The values of a kind are totally ordered, up to the equality of the language. -/
structure TotallyOrders (kind : Value → Prop) : Prop where
  total : ∀ a b, kind a → kind b → AtMost a b ∨ AtMost b a
  trans : ∀ a b c, kind a → kind b → kind c → AtMost a b → AtMost b c → AtMost a c
  antisymm : ∀ a b, kind a → kind b → AtMost a b → AtMost b a →
    compare .equal a b = .ok (some true)

/-- Integers and decimals of all ranks and scales are totally ordered together. -/
theorem totallyOrders_rational : TotallyOrders fun v => ∃ x, v.rational? = some x where
  total := by
    rintro a b ⟨x, hasX⟩ ⟨y, hasY⟩
    rw [atMost_iff_of_rational hasX hasY, atMost_iff_of_rational hasY hasX]
    exact le_total x y
  trans := by
    rintro a b c ⟨x, hasX⟩ ⟨y, hasY⟩ ⟨z, hasZ⟩
    rw [atMost_iff_of_rational hasX hasY, atMost_iff_of_rational hasY hasZ,
      atMost_iff_of_rational hasX hasZ]
    exact le_trans
  antisymm := by
    rintro a b ⟨x, hasX⟩ ⟨y, hasY⟩ atMost atLeast
    rw [atMost_iff_of_rational hasX hasY] at atMost
    rw [atMost_iff_of_rational hasY hasX] at atLeast
    rw [compare_of_rational (by decide) hasX hasY, le_antisymm atMost atLeast]
    simp [RelationalOp.onRationals]

/-- Exchanged operands give the same under the mirrored operator, and where they cannot be compared
the error names them in their new order. -/
theorem compare_mirrored
    {op : RelationalOp}
    (notLike : op ≠ .like)
    (leftNotFloating : left.isFloating = false)
    (rightNotFloating : right.isFloating = false) :
    compare op.mirrored right left =
      (compare op left right).mapError fun _ =>
        .operandTypes op.mirrored.symbol right.type left.type := by
  rw [compare_eq_comparison? (RelationalOp.mirrored_ne_like notLike),
    compare_eq_comparison? notLike, comparison?_mirrored op leftNotFloating rightNotFloating]
  cases comparison? op left right <;> rfl

/-- The opposite operator gives the opposite truth, and where the operands cannot be compared the
error names the opposite operator. -/
theorem compare_negated {op : RelationalOp} (notLike : op ≠ .like) (left right : Value) :
    compare op.negated left right =
      ((compare op left right).map Truth.not).mapError fun _ =>
        .operandTypes op.negated.symbol left.type right.type := by
  rw [compare_eq_comparison? (RelationalOp.negated_ne_like notLike),
    compare_eq_comparison? notLike, comparison?_negated notLike]
  cases comparison? op left right <;> rfl

end Value

/-- The laws of the operators other than `like`. Operands that are not floating-point numbers can be
exchanged together with the direction of the operator; this gives the same truth, or both fail for
the types. The opposite operator gives the opposite truth, unknown for unknown, and fails where the
operator fails: `<>` against `=`, `>=` against `<` and `<=` against `>`. Integers of any width and
decimals of any scale are always compared, by the numbers that they stand for, and so they are
totally ordered. -/
theorem comparison_laws {op : RelationalOp} (notLike : op ≠ .like) (left right : Value) :
    (left.isFloating = false → right.isFloating = false →
      Value.compare op.mirrored right left =
        (Value.compare op left right).mapError fun _ =>
          .operandTypes op.mirrored.symbol right.type left.type) ∧
    Value.compare op.negated left right =
      (((Value.compare op left right).map Truth.not).mapError fun _ =>
        .operandTypes op.negated.symbol left.type right.type) ∧
    (∀ x y, left.rational? = some x → right.rational? = some y →
      Value.compare op left right = .ok (some (op.onRationals x y))) ∧
    Value.TotallyOrders fun v => ∃ x, v.rational? = some x :=
  ⟨Value.compare_mirrored notLike, Value.compare_negated notLike left right,
    fun _ _ => Value.compare_of_rational notLike, Value.totallyOrders_rational⟩

/-- The number 3 in 8 bits is less than the decimal `3.50`, so that `3.50 > 3` holds and `3 >= 3.50`
does not. -/
theorem comparison_laws_three_and_a_half :
    let three : Value := .integer ⟨.w8, 3, by decide⟩
    let more : Value := .decimal ⟨false, 350, 2, by decide, by decide⟩
    RelationalOp.less ≠ .like ∧ three.isFloating = false ∧ more.isFloating = false ∧
      three.rational? = some 3 ∧ more.rational? = some (7 / 2) ∧
      Value.compare .less three more = .ok (some true) ∧
      Value.compare .greater more three = .ok (some true) ∧
      Value.compare .greaterOrEqual three more = .ok (some false) := by
  intro three more
  obtain ⟨mirrored, negated, rational, _⟩ :=
    comparison_laws (show RelationalOp.less ≠ .like by decide) three more
  have isThree : three.rational? = some 3 := rfl
  have isMore : more.rational? = some (7 / 2) := by
    simp only [more, Value.rational?, Decimal.toRat, Decimal.numerator]
    norm_num
  have less : Value.compare .less three more = .ok (some true) := by
    rw [rational 3 (7 / 2) isThree isMore]
    norm_num [RelationalOp.onRationals]
  refine ⟨by decide, rfl, rfl, isThree, isMore, less, ?_, ?_⟩
  · rw [less] at mirrored
    exact mirrored rfl rfl
  · rw [less] at negated
    exact negated

end ObjectQuery

import ObjectQuery.Expr.Simplify
import ObjectQuery.Proofs.Outcome
import ObjectQuery.Proofs.Value.Joining

/-!
Contract: each folding rule keeps the value of the node that it replaces.

The operands of a rule are taken as they are, so every lemma here compares a node with its own
folded form over the same operands. A fold may have a value where the node fails, because null
absorbs an operand that would have failed.

Owns: the evaluation of constants, the search among constants as a join, and one lemma for each
folding rule.

Does not own: the simplification of operands.
-/

namespace ObjectQuery

variable {store : Store} {root : Nat}

/-! ## Constants -/

theorem Expr.evaluateAt_of_constant
    {e : Expr}
    {value : Value}
    (constant : e.constant? = some value) :
    e.evaluateAt store root = .ok value := by
  cases e with
  | literal v =>
    obtain rfl := Option.some.inj constant
    rw [evaluateAt]
  | boolean b =>
    obtain rfl := Option.some.inj constant
    rw [evaluateAt]
  | _ => cases constant

theorem Expr.evaluateAt_ofValue (value : Value) :
    (Expr.ofValue value).evaluateAt store root = .ok value := by
  cases value <;> rfl

theorem Expr.constant?_of_isNullLiteral
    {e : Expr}
    (null : e.isNullLiteral = true) :
    e.constant? = some .null := by
  unfold isNullLiteral at null
  split at null
  · rfl
  · cases null

theorem Expr.evaluateEach_of_constants
    {es : List Expr}
    {values : List Value}
    (constants : es.mapM Expr.constant? = some values) :
    Expr.evaluateEach store root es = values.map .ok := by
  induction es generalizing values with
  | nil =>
    obtain rfl : [] = values := by simpa using constants
    rfl
  | cons e rest inductionHypothesis =>
    obtain ⟨value, first, others, remaining, rfl⟩ :
        ∃ value, e.constant? = some value ∧
          ∃ others, rest.mapM Expr.constant? = some others ∧ value :: others = values := by
      simpa [List.mapM_cons, Option.bind_eq_some_iff] using constants
    rw [Expr.evaluateEach, evaluateAt_of_constant first, inductionHypothesis remaining]
    rfl

theorem Fold.evaluateAt_ofTruth (truth : Truth) :
    (Fold.ofTruth truth).evaluateAt store root = .ok truth.toValue := by
  cases truth <;> rfl

/-! ## Null in arithmetic -/

theorem Value.arithmetic_null_left (op : ArithmeticOp) (right : Value) :
    Value.arithmetic op .null right = .ok .null :=
  rfl

theorem Value.arithmetic_null_right (op : ArithmeticOp) (left : Value) :
    Value.arithmetic op left .null = .ok .null := by
  have operands : Operands.promote op.symbol left .null = .ok .null := by
    simp [Operands.promote, Operands.promote?, Value.isNull]
  simp only [Value.arithmetic, operands]
  rfl

/-! ## Truth -/

namespace Truth

/-- A value that can be read as a truth is the value of that truth. -/
theorem toValue_ofValue_keeps (outcome : Outcome) :
    Keeps ((outcome >>= ofValue).map toValue) outcome := by
  rcases outcome with error | value
  · exact Keeps.of_error error _
  · cases value with
    | null => exact Keeps.refl _
    | boolean b => exact Keeps.refl _
    | _ => exact Keeps.of_error _ _

end Truth

/-! ## Membership in constants -/

/-- The equalities with the candidates are joined. -/
theorem anyEqual_eq_joinAll (operand : Outcome) (candidates : List Outcome) :
    anyEqual operand candidates =
      Truth.joinAll true (candidates.map fun candidate => do
        Value.compare .equal (← operand) (← candidate)) :=
  List.foldl_map.symm.trans
    ((Truth.foldl_join _).trans (Truth.join_neutral_left true _))

/-- The search among constants answers as the join of the single equalities does. -/
theorem Fold.joinAll_of_among
    {operand : Value}
    {values : List Value}
    {truth : Truth}
    (answered : Fold.among? operand values = some truth) :
    Truth.joinAll true (values.map (Value.compare .equal operand)) = .ok truth := by
  induction values generalizing truth with
  | nil =>
    obtain rfl : some false = truth := by simpa [Fold.among?] using answered
    rfl
  | cons candidate rest inductionHypothesis =>
    rw [List.map_cons, Truth.joinAll_cons]
    cases compared : Value.compare .equal operand candidate with
    | error error => simp [Fold.among?, compared] at answered
    | ok equality =>
      rcases equality with _ | _ | _
      · -- An unknown equality leaves the answer to a later true one.
        rcases later : Fold.among? operand rest with _ | _ | _ | _ <;>
          simp only [Fold.among?, compared, later, reduceCtorEq, Option.some.injEq] at answered <;>
          rw [inductionHypothesis later, ← answered] <;>
          rfl
      · have remaining : Fold.among? operand rest = some truth := by
          simpa [Fold.among?, compared] using answered
        rw [inductionHypothesis remaining]
        exact Truth.join_neutral_left true _
      · obtain rfl : some true = truth := by simpa [Fold.among?, compared] using answered
        exact Truth.join_dominant_left true _

theorem Fold.anyEqual_of_among
    {operand : Value}
    {values : List Value}
    {truth : Truth}
    (answered : Fold.among? operand values = some truth) :
    anyEqual (.ok operand) (values.map .ok) = .ok truth := by
  rw [anyEqual_eq_joinAll, List.map_map]
  exact Fold.joinAll_of_among answered

/-! ## Rules -/

namespace Fold

theorem binary_keeps (op : ArithmeticOp) (left right : Expr) :
    Keeps ((Expr.binary op left right).evaluateAt store root)
      ((binary op left right).evaluateAt store root) := by
  by_cases absorbed : (left.isNullLiteral || right.isNullLiteral) = true
  · rw [binary, if_pos absorbed, Expr.evaluateAt, Expr.evaluateAt]
    rcases (Bool.or_eq_true _ _).mp absorbed with null | null
    · rw [Expr.evaluateAt_of_constant (Expr.constant?_of_isNullLiteral null)]
      cases right.evaluateAt store root with
      | error error => exact Keeps.of_error error _
      | ok value => exact Keeps.of_eq (Value.arithmetic_null_left op value)
    · rw [Expr.evaluateAt_of_constant (Expr.constant?_of_isNullLiteral null)]
      cases left.evaluateAt store root with
      | error error => exact Keeps.of_error error _
      | ok value => exact Keeps.of_eq (Value.arithmetic_null_right op value)
  · rw [binary, if_neg absorbed]
    split
    · next a b constantLeft constantRight =>
      split
      · next value computed =>
        apply Keeps.of_eq
        rw [Expr.evaluateAt_ofValue, Expr.evaluateAt, Expr.evaluateAt_of_constant constantLeft,
          Expr.evaluateAt_of_constant constantRight]
        exact computed
      · exact Keeps.refl _
    · exact Keeps.refl _

theorem negate_keeps (operand : Expr) :
    Keeps ((Expr.negate operand).evaluateAt store root)
      ((negate operand).evaluateAt store root) := by
  unfold negate
  split
  · split
    · split
      · next negated =>
        apply Keeps.of_eq
        rw [Expr.evaluateAt, Expr.evaluateAt, Expr.evaluateAt]
        exact negated
      · exact Keeps.refl _
    · exact Keeps.refl _
  · exact Keeps.refl _

theorem and_keeps (left right : Expr) :
    Keeps ((Expr.and left right).evaluateAt store root)
      ((and left right).evaluateAt store root) := by
  unfold and
  split <;> rw [Expr.evaluateAt]
  · rw [Expr.evaluateAt]
    exact Keeps.of_eq (congrArg _ (Truth.join_dominant_left false _))
  · rw [Expr.evaluateAt, Truth.conjoin]
    exact Keeps.of_eq (congrArg _ (Truth.join_dominant_right false _))
  · exact (Keeps.of_eq (congrArg _ (Truth.join_neutral_left false _))).trans
      (Truth.toValue_ofValue_keeps _)
  · exact (Keeps.of_eq (congrArg _ (Truth.join_neutral_right false _))).trans
      (Truth.toValue_ofValue_keeps _)
  · exact Keeps.refl _

theorem or_keeps (left right : Expr) :
    Keeps ((Expr.or left right).evaluateAt store root)
      ((or left right).evaluateAt store root) := by
  unfold or
  split <;> rw [Expr.evaluateAt]
  · rw [Expr.evaluateAt]
    exact Keeps.of_eq (congrArg _ (Truth.join_dominant_left true _))
  · rw [Expr.evaluateAt]
    exact Keeps.of_eq (congrArg _ (Truth.join_dominant_right true _))
  · exact (Keeps.of_eq (congrArg _ (Truth.join_neutral_left true _))).trans
      (Truth.toValue_ofValue_keeps _)
  · exact (Keeps.of_eq (congrArg _ (Truth.join_neutral_right true _))).trans
      (Truth.toValue_ofValue_keeps _)
  · exact Keeps.refl _

theorem not_keeps (operand : Expr) :
    Keeps ((Expr.not operand).evaluateAt store root)
      ((not operand).evaluateAt store root) := by
  unfold not
  split
  · exact Keeps.refl _
  · exact Keeps.refl _

theorem relational_keeps (op : RelationalOp) (left right : Expr) :
    Keeps ((Expr.relational op left right).evaluateAt store root)
      ((relational op left right).evaluateAt store root) := by
  unfold relational
  split
  · next a b constantLeft constantRight =>
    split
    · next truth compared =>
      apply Keeps.of_eq
      rw [evaluateAt_ofTruth, Expr.evaluateAt, Expr.evaluateAt_of_constant constantLeft,
        Expr.evaluateAt_of_constant constantRight]
      exact congrArg (Except.map Truth.toValue) compared
    · exact Keeps.refl _
  · exact Keeps.refl _

/-- The search has the value of the membership test, and only where it has one. -/
theorem evaluateAt_oneOf (operand : Expr) (candidates : List Expr) :
    (oneOf operand candidates).evaluateAt store root =
      (Expr.oneOf operand candidates).evaluateAt store root := by
  unfold oneOf
  split
  · next value values constant constants =>
    split
    · next truth answered =>
      rw [evaluateAt_ofTruth, Expr.evaluateAt, Expr.evaluateAt_of_constant constant,
        Expr.evaluateEach_of_constants constants, anyEqual_of_among answered]
      rfl
    · rfl
  · rfl

theorem oneOf_keeps (operand : Expr) (candidates : List Expr) :
    Keeps ((Expr.oneOf operand candidates).evaluateAt store root)
      ((oneOf operand candidates).evaluateAt store root) :=
  Keeps.of_eq (evaluateAt_oneOf operand candidates).symm

end Fold

end ObjectQuery

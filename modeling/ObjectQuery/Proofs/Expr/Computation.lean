import ObjectQuery.Proofs.Expr.Folding
import ObjectQuery.Proofs.Success

/-!
Contract: a tree of constants that has a value is folded to that value.

Evaluation goes through values, folding through nodes. A folded operand is a constant of either
kind, and where an operator gives a value its rule takes the constants it is given: the rule for a
change of sign wants a literal, and no boolean has an opposite number.

Owns:
- `Expr.IsComputation`, the trees that need no context;
- one lemma for each rule, over operands that are constants;
- the value of a folded tree.

Does not own: that a fold keeps the value of a node.
-/

namespace ObjectQuery

/-- A tree of constants under arithmetic, changes of sign and comparisons. -/
inductive Expr.IsComputation : Expr → Prop
  | literal (value : Value) : IsComputation (.literal value)
  | boolean (value : Bool) : IsComputation (.boolean value)
  | binary {left right : Expr} (op : ArithmeticOp)
      (ofLeft : IsComputation left) (ofRight : IsComputation right) :
      IsComputation (.binary op left right)
  | negate {operand : Expr} (ofOperand : IsComputation operand) :
      IsComputation (.negate operand)
  | relational {left right : Expr} (op : RelationalOp)
      (ofLeft : IsComputation left) (ofRight : IsComputation right) :
      IsComputation (.relational op left right)

theorem Expr.constant?_ofValue (value : Value) : (Expr.ofValue value).constant? = some value := by
  cases value <;> rfl

namespace Fold

theorem constant?_ofTruth (truth : Truth) : (ofTruth truth).constant? = some truth.toValue := by
  cases truth <;> rfl

variable {left right operand : Expr} {a b value : Value}

theorem constant?_binary
    {op : ArithmeticOp}
    (isLeft : left.constant? = some a)
    (isRight : right.constant? = some b)
    (computed : Value.arithmetic op a b = .ok value) :
    (binary op left right).constant? = some value := by
  by_cases absorbed : (left.isNullLiteral || right.isNullLiteral) = true
  · -- Null takes the place of the node, and it is what the operator gives.
    have isNull : value = .null := by
      rcases (Bool.or_eq_true _ _).mp absorbed with null | null
      · obtain rfl : .null = a :=
          Option.some.inj ((Expr.constant?_of_isNullLiteral null).symm.trans isLeft)
        exact (Except.ok.inj computed).symm
      · obtain rfl : .null = b :=
          Option.some.inj ((Expr.constant?_of_isNullLiteral null).symm.trans isRight)
        exact Except.ok.inj (computed.symm.trans (Value.arithmetic_null_right op a))
    rw [binary, if_pos absorbed, isNull]
    rfl
  · simp only [binary, if_neg absorbed, isLeft, isRight, computed, Expr.constant?_ofValue]

theorem constant?_negate
    (isOperand : operand.constant? = some a)
    (negated : a.negate = .ok value) :
    (negate operand).constant? = some value := by
  cases operand with
  | literal v =>
    obtain rfl : v = a := Option.some.inj isOperand
    have number : (v.isNull || v.isNumeric) = true := by
      cases v with
      | boolean _ | string _ | dateTime _ => cases negated
      | _ => rfl
    simp only [negate, if_pos number, negated]
    rfl
  | boolean b =>
    obtain rfl : .boolean b = a := Option.some.inj isOperand
    cases negated
  | _ => cases isOperand

theorem constant?_relational
    {op : RelationalOp}
    {truth : Truth}
    (isLeft : left.constant? = some a)
    (isRight : right.constant? = some b)
    (compared : Value.compare op a b = .ok truth) :
    (relational op left right).constant? = some truth.toValue := by
  simp only [relational, isLeft, isRight, compared, constant?_ofTruth]

end Fold

/-- A tree of constants that has a value, in whatever context, is simplified to the constant of that
value. -/
theorem simplify_computes
    {e : Expr}
    (tree : e.IsComputation)
    (store : Store)
    (root : Nat)
    {value : Value}
    (evaluated : e.evaluateAt store root = .ok value) :
    e.simplify.constant? = some value := by
  induction tree generalizing value with
  | literal v | boolean b =>
    rw [Expr.evaluateAt] at evaluated
    exact congrArg some (Except.ok.inj evaluated)
  | binary op _ _ ofLeft ofRight =>
    rw [Expr.evaluateAt] at evaluated
    obtain ⟨a, leftValue, rest⟩ := bind_eq_ok.mp evaluated
    obtain ⟨b, rightValue, computed⟩ := bind_eq_ok.mp rest
    exact Fold.constant?_binary (ofLeft leftValue) (ofRight rightValue) computed
  | negate _ ofOperand =>
    rw [Expr.evaluateAt] at evaluated
    obtain ⟨a, operandValue, negated⟩ := bind_eq_ok.mp evaluated
    exact Fold.constant?_negate (ofOperand operandValue) negated
  | relational op _ _ ofLeft ofRight =>
    rw [Expr.evaluateAt] at evaluated
    obtain ⟨a, leftValue, rest⟩ := bind_eq_ok.mp evaluated
    obtain ⟨b, rightValue, rest⟩ := bind_eq_ok.mp rest
    obtain ⟨truth, compared, isValue⟩ := bind_eq_ok.mp rest
    rw [← Except.ok.inj isValue]
    exact Fold.constant?_relational (ofLeft leftValue) (ofRight rightValue) compared

/-- In `'it is ' + (-(2 + 1) < 0) = 'it is true'` a sum, its sign, a comparison and a joined text
are computed in turn. -/
theorem simplify_computes_comparison_as_text :
    let int (n : Int) (fits : IntWidth.w32.Holds n) : Expr := .literal (.integer ⟨.w32, n, fits⟩)
    let text (s : String) : Expr := .literal (.string s)
    let below : Expr := .relational .less
      (.negate (.binary .add (int 2 (by decide)) (int 1 (by decide)))) (int 0 (by decide))
    let e : Expr := .relational .equal (.binary .add (text "it is ") below) (text "it is true")
    e.IsComputation ∧ e.simplify.constant? = some (.boolean true) := by
  intro int text below e
  have tree : e.IsComputation :=
    .relational _ (.binary _ (.literal _)
      (.relational _ (.negate (.binary _ (.literal _) (.literal _))) (.literal _))) (.literal _)
  exact ⟨tree, simplify_computes tree Store.empty 0 (by rfl)⟩

end ObjectQuery

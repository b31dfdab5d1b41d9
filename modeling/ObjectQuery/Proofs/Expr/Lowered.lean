import ObjectQuery.Expr

/-!
Contract: expressions and queries with their names in lower case.

Owns:
- `Expr.lowered` and `Query.lowered`, which lower the names of properties, functions, classes and
  labels, the modifiers of parameters and raw text, and nothing else;
- `isBoolean_lowered` and `isHostTyped_lowered`.

Does not own: what names mean.
-/

namespace ObjectQuery

/-- A path in lower case. -/
def Path.lowered (path : Path) : Path :=
  ⟨path.owner.map String.toLower, path.name.toLower⟩

/-- A from item in lower case. -/
def FromItem.lowered (item : FromItem) : FromItem :=
  ⟨item.className.toLower, item.label.map String.toLower⟩

mutual

/-- The expression with its names in lower case. Literals stay as they are. -/
def Expr.lowered : Expr → Expr
  | .literal value => .literal value
  | .parameter index modifier => .parameter index (modifier.map String.toLower)
  | .path p => .path p.lowered
  | .binary op left right => .binary op left.lowered right.lowered
  | .negate operand => .negate operand.lowered
  | .call function arguments => .call function.toLower (Expr.loweredEach arguments)
  | .raw text => .raw text.toLower
  | .query q => .query q.lowered
  | .and left right => .and left.lowered right.lowered
  | .or left right => .or left.lowered right.lowered
  | .not operand => .not operand.lowered
  | .relational op left right => .relational op left.lowered right.lowered
  | .oneOf operand candidates => .oneOf operand.lowered (Expr.loweredEach candidates)
  | .nullTest operand negated => .nullTest operand.lowered negated
  | .boolean value => .boolean value
  | .nonempty q => .nonempty q.lowered
  | .count owner collection => .count (owner.map String.toLower) collection.toLower
  | .contains owner collection element =>
    .contains (owner.map String.toLower) collection.toLower element.lowered
  | .asterisk owner => .asterisk (owner.map String.toLower)
  | .classTag owner => .classTag (owner.map String.toLower)

/-- Several expressions in lower case. -/
def Expr.loweredEach : List Expr → List Expr
  | [] => []
  | e :: rest => e.lowered :: Expr.loweredEach rest

/-- A clause in lower case, if it is there. -/
def Expr.loweredOption : Option Expr → Option Expr
  | none => none
  | some e => some e.lowered

/-- An item of the select list in lower case. -/
def SelectItem.lowered : SelectItem → SelectItem
  | ⟨expression, label⟩ => ⟨expression.lowered, label.map String.toLower⟩

/-- A select list in lower case. -/
def SelectItem.loweredEach : List SelectItem → List SelectItem
  | [] => []
  | item :: rest => item.lowered :: SelectItem.loweredEach rest

/-- An item of the order-by list in lower case. -/
def OrderItem.lowered : OrderItem → OrderItem
  | ⟨expression, ascending⟩ => ⟨expression.lowered, ascending⟩

/-- An order-by list in lower case. -/
def OrderItem.loweredEach : List OrderItem → List OrderItem
  | [] => []
  | item :: rest => item.lowered :: OrderItem.loweredEach rest

/-- The query with its names in lower case. -/
def Query.lowered : Query → Query
  | ⟨distinct, select, sources, condition, groupBy, having, orderBy⟩ =>
    ⟨distinct, SelectItem.loweredEach select, sources.map FromItem.lowered,
      Expr.loweredOption condition, Expr.loweredEach groupBy, Expr.loweredOption having,
      OrderItem.loweredEach orderBy⟩

end

namespace Expr

theorem loweredEach_eq_map (expressions : List Expr) :
    loweredEach expressions = expressions.map lowered := by
  induction expressions with
  | nil => rfl
  | cons e rest inductionHypothesis => rw [loweredEach, List.map_cons, inductionHypothesis]

theorem loweredOption_eq_map (clause : Option Expr) : loweredOption clause = clause.map lowered := by
  cases clause <;> rfl

theorem isBoolean_lowered (e : Expr) : e.lowered.isBoolean = e.isBoolean := by
  cases e <;> rfl

theorem isHostTyped_lowered (e : Expr) : e.lowered.isHostTyped = e.isHostTyped := by
  cases e <;> rfl

end Expr

theorem SelectItem.loweredEach_eq_map (items : List SelectItem) :
    loweredEach items = items.map lowered := by
  induction items with
  | nil => rfl
  | cons item rest inductionHypothesis => rw [loweredEach, List.map_cons, inductionHypothesis]

theorem OrderItem.loweredEach_eq_map (items : List OrderItem) :
    loweredEach items = items.map lowered := by
  induction items with
  | nil => rfl
  | cons item rest inductionHypothesis => rw [loweredEach, List.map_cons, inductionHypothesis]

/-- The query in lower case, clause by clause. -/
theorem Query.lowered_eq (q : Query) :
    q.lowered =
      { distinct := q.distinct
        select := q.select.map SelectItem.lowered
        sources := q.sources.map FromItem.lowered
        condition := q.condition.map Expr.lowered
        groupBy := q.groupBy.map Expr.lowered
        having := q.having.map Expr.lowered
        orderBy := q.orderBy.map OrderItem.lowered } := by
  cases q
  simp only [lowered, SelectItem.loweredEach_eq_map, OrderItem.loweredEach_eq_map,
    Expr.loweredEach_eq_map, Expr.loweredOption_eq_map]

end ObjectQuery

import ObjectQuery.Proofs.Schema.Places

/-!
Contract: queries whose from items have other labels.

A label stands in two kinds of places: at the from item that has it, and in front of the chains of
names that start there. A chain has a first name also when it starts at a field, and then a change
of labels meets the name of the field.

Owns:
- `Expr.handles`, the names of a node that may be labels;
- `Expr.relabel` and `Query.relabel`, which change these and nothing else.

Does not own: what names mean.
-/

namespace ObjectQuery

/-- The names of a node that may be labels: those of its from items and the first one of its
chain. -/
def Expr.handles (e : Expr) : List String :=
  match e with
  | .query q | .nonempty q => q.sources.filterMap (·.label)
  | _ => e.chain.head?.toList

/-- Takes one name for another. -/
def replaceName (old new name : String) : String :=
  if name = old then new else name

/-- A chain of names with another first one. -/
def changeFirst (change : String → String) : List String → List String
  | [] => []
  | first :: rest => change first :: rest

/-- A from item with another label, if it has one. -/
def FromItem.relabel (change : String → String) (item : FromItem) : FromItem :=
  { item with label := item.label.map change }

mutual

/-- The expression with other labels. -/
def Expr.relabel (change : String → String) : Expr → Expr
  | .literal value => .literal value
  | .parameter index modifier => .parameter index modifier
  | .path p => .path ⟨changeFirst change p.owner, p.name⟩
  | .binary op left right => .binary op (left.relabel change) (right.relabel change)
  | .negate operand => .negate (operand.relabel change)
  | .call function arguments => .call function (Expr.relabelEach change arguments)
  | .raw text => .raw text
  | .query q => .query (q.relabel change)
  | .and left right => .and (left.relabel change) (right.relabel change)
  | .or left right => .or (left.relabel change) (right.relabel change)
  | .not operand => .not (operand.relabel change)
  | .relational op left right => .relational op (left.relabel change) (right.relabel change)
  | .oneOf operand candidates =>
    .oneOf (operand.relabel change) (Expr.relabelEach change candidates)
  | .nullTest operand negated => .nullTest (operand.relabel change) negated
  | .boolean value => .boolean value
  | .nonempty q => .nonempty (q.relabel change)
  | .count owner collection => .count (changeFirst change owner) collection
  | .contains owner collection element =>
    .contains (changeFirst change owner) collection (element.relabel change)
  | .asterisk owner => .asterisk (changeFirst change owner)
  | .classTag owner => .classTag (changeFirst change owner)

/-- Several expressions with other labels. -/
def Expr.relabelEach (change : String → String) : List Expr → List Expr
  | [] => []
  | e :: rest => e.relabel change :: Expr.relabelEach change rest

/-- A clause with other labels, if it is there. -/
def Expr.relabelOption (change : String → String) : Option Expr → Option Expr
  | none => none
  | some e => some (e.relabel change)

/-- A select list whose expressions have other labels. Its own labels are names of the result, to
which no chain leads. -/
def SelectItem.relabelEach (change : String → String) : List SelectItem → List SelectItem
  | [] => []
  | ⟨expression, label⟩ :: rest =>
    ⟨expression.relabel change, label⟩ :: SelectItem.relabelEach change rest

/-- An order-by list with other labels. -/
def OrderItem.relabelEach (change : String → String) : List OrderItem → List OrderItem
  | [] => []
  | ⟨expression, ascending⟩ :: rest =>
    ⟨expression.relabel change, ascending⟩ :: OrderItem.relabelEach change rest

/-- The query with other labels. -/
def Query.relabel (change : String → String) : Query → Query
  | ⟨distinct, select, sources, condition, groupBy, having, orderBy⟩ =>
    ⟨distinct, SelectItem.relabelEach change select, sources.map (·.relabel change),
      Expr.relabelOption change condition, Expr.relabelEach change groupBy,
      Expr.relabelOption change having, OrderItem.relabelEach change orderBy⟩

end

namespace Expr

variable (e : Expr) (change : String → String)

@[simp]
theorem isBoolean_relabel : (e.relabel change).isBoolean = e.isBoolean := by
  cases e <;> rfl

@[simp]
theorem isNullLiteral_relabel : (e.relabel change).isNullLiteral = e.isNullLiteral := by
  cases e <;> rfl

@[simp]
theorem isBareAsterisk_relabel : (e.relabel change).isBareAsterisk = e.isBareAsterisk := by
  cases e with
  | asterisk owner => cases owner <;> rfl
  | _ => rfl

end Expr

end ObjectQuery

import ObjectQuery.Value.Operators

/-!
Contract: constant folding and boolean algebra on expressions.

Children are simplified first. Constants are folded by the operators of evaluation; a fold that
would fail leaves the node as it is, so simplification itself never fails.

Owns: `Expr.simplify`, `Query.simplify` and one rule for each kind of node that folds.
-/

namespace ObjectQuery

namespace Fold

/-- Null absorbs arithmetic, and constants are computed. -/
def binary (op : ArithmeticOp) (left right : Expr) : Expr :=
  if left.isNullLiteral || right.isNullLiteral then
    .literal .null
  else
    match left.constant?, right.constant? with
    | some a, some b =>
      match Value.arithmetic op a b with
      | .ok v => .ofValue v
      | .error _ => .binary op left right
    | _, _ => .binary op left right

/-- A literal null or number changes its sign. -/
def negate (operand : Expr) : Expr :=
  match operand with
  | .literal v =>
    if v.isNull || v.isNumeric then
      match v.negate with
      | .ok w => .literal w
      | .error _ => .negate operand
    else
      .negate operand
  | _ => .negate operand

/-- False decides, and true is dropped. -/
def and : Expr → Expr → Expr
  | .boolean false, _ => .boolean false
  | _, .boolean false => .boolean false
  | .boolean true, right => right
  | left, .boolean true => left
  | left, right => .and left right

/-- True decides, and false is dropped. -/
def or : Expr → Expr → Expr
  | .boolean true, _ => .boolean true
  | _, .boolean true => .boolean true
  | .boolean false, right => right
  | left, .boolean false => left
  | left, right => .or left right

/-- A boolean is inverted. -/
def not : Expr → Expr
  | .boolean b => .boolean (!b)
  | operand => .not operand

/-- A truth as a literal. -/
def ofTruth : Truth → Expr
  | some b => .boolean b
  | none => .literal .null

/-- Constants are compared. -/
def relational (op : RelationalOp) (left right : Expr) : Expr :=
  match left.constant?, right.constant? with
  | some a, some b =>
    match Value.compare op a b with
    | .ok t => ofTruth t
    | .error _ => .relational op left right
  | _, _ => .relational op left right

/-- Whether a value is among the candidates, taken from left to right: a true equality decides, and
a failure in front of it leaves the question open. -/
def among? (operand : Value) : List Value → Option Truth
  | [] => some (some false)
  | candidate :: rest =>
    match Value.compare .equal operand candidate with
    | .error _ => none
    | .ok (some true) => some (some true)
    | .ok (some false) => among? operand rest
    | .ok none =>
      match among? operand rest with
      | some (some false) => some none
      | result => result

/-- A constant is sought among constants. -/
def oneOf (operand : Expr) (candidates : List Expr) : Expr :=
  match operand.constant?, candidates.mapM Expr.constant? with
  | some v, some values =>
    match among? v values with
    | some t => ofTruth t
    | none => .oneOf operand candidates
  | _, _ => .oneOf operand candidates

end Fold

mutual

/-- The simplified expression. A membership test without candidates is false. -/
def Expr.simplify : Expr → Expr
  | .literal v => .literal v
  | .parameter index modifier => .parameter index modifier
  | .path p => .path p
  | .binary op left right => Fold.binary op left.simplify right.simplify
  | .negate operand => Fold.negate operand.simplify
  | .call function arguments => .call function (Expr.simplifyEach arguments)
  | .raw source => .raw source
  | .query q => .query q.simplify
  | .and left right => Fold.and left.simplify right.simplify
  | .or left right => Fold.or left.simplify right.simplify
  | .not operand => Fold.not operand.simplify
  | .relational op left right => Fold.relational op left.simplify right.simplify
  | .oneOf _ [] => .boolean false
  | .oneOf operand (first :: rest) =>
    Fold.oneOf operand.simplify (first.simplify :: Expr.simplifyEach rest)
  | .nullTest operand negated => .nullTest operand.simplify negated
  | .boolean b => .boolean b
  | .nonempty q => .nonempty q.simplify
  | .count owner collection => .count owner collection
  | .contains owner collection element => .contains owner collection element.simplify
  | .asterisk owner => .asterisk owner
  | .classTag owner => .classTag owner

/-- Each expression simplified. -/
def Expr.simplifyEach : List Expr → List Expr
  | [] => []
  | e :: rest => e.simplify :: Expr.simplifyEach rest

/-- The expression simplified, if it is there. -/
def Expr.simplifyOption : Option Expr → Option Expr
  | none => none
  | some e => some e.simplify

/-- Each select item simplified. -/
def SelectItem.simplifyEach : List SelectItem → List SelectItem
  | [] => []
  | ⟨expression, label⟩ :: rest => ⟨expression.simplify, label⟩ :: SelectItem.simplifyEach rest

/-- Each order-by item simplified. -/
def OrderItem.simplifyEach : List OrderItem → List OrderItem
  | [] => []
  | ⟨expression, ascending⟩ :: rest =>
    ⟨expression.simplify, ascending⟩ :: OrderItem.simplifyEach rest

/-- The query with every clause simplified. -/
def Query.simplify : Query → Query
  | ⟨distinct, select, sources, condition, groupBy, having, orderBy⟩ =>
    ⟨distinct, SelectItem.simplifyEach select, sources, Expr.simplifyOption condition,
      Expr.simplifyEach groupBy, Expr.simplifyOption having, OrderItem.simplifyEach orderBy⟩

end

end ObjectQuery

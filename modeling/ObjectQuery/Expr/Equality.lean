import ObjectQuery.Expr

/-!
Contract: equality of expressions and queries as trees.

Two trees are the same when they agree node by node and their literals are the same data, so that
decimals count by number and a NaN differs from itself.

Owns: `Expr.same`, `Query.same`.
-/

namespace ObjectQuery

mutual

/-- The same tree. -/
def Expr.same : Expr → Expr → Bool
  | .literal a, .literal b => a.same b
  | .parameter i m, .parameter j n => i == j && m == n
  | .path p, .path q => p == q
  | .binary op a b, .binary op' a' b' => op == op' && a.same a' && b.same b'
  | .negate a, .negate b => a.same b
  | .call f as, .call g bs => f == g && Expr.sameList as bs
  | .raw a, .raw b => a == b
  | .query q, .query r => q.same r
  | .and a b, .and a' b' => a.same a' && b.same b'
  | .or a b, .or a' b' => a.same a' && b.same b'
  | .not a, .not b => a.same b
  | .relational op a b, .relational op' a' b' => op == op' && a.same a' && b.same b'
  | .oneOf a as, .oneOf b bs => a.same b && Expr.sameList as bs
  | .nullTest a m, .nullTest b n => a.same b && m == n
  | .boolean a, .boolean b => a == b
  | .nonempty q, .nonempty r => q.same r
  | .count o c, .count o' c' => o == o' && c == c'
  | .contains o c a, .contains o' c' b => o == o' && c == c' && a.same b
  | .asterisk o, .asterisk o' => o == o'
  | .classTag o, .classTag o' => o == o'
  | _, _ => false

/-- The same trees in the same order. -/
def Expr.sameList : List Expr → List Expr → Bool
  | [], [] => true
  | a :: as, b :: bs => a.same b && Expr.sameList as bs
  | _, _ => false

/-- The same tree, or none in both places. -/
def Expr.sameOption : Option Expr → Option Expr → Bool
  | none, none => true
  | some a, some b => a.same b
  | _, _ => false

/-- The same select items. -/
def SelectItem.sameList : List SelectItem → List SelectItem → Bool
  | [], [] => true
  | ⟨a, l⟩ :: as, ⟨b, m⟩ :: bs => a.same b && l == m && SelectItem.sameList as bs
  | _, _ => false

/-- The same order-by items. -/
def OrderItem.sameList : List OrderItem → List OrderItem → Bool
  | [], [] => true
  | ⟨a, up⟩ :: as, ⟨b, up'⟩ :: bs => a.same b && up == up' && OrderItem.sameList as bs
  | _, _ => false

/-- The same query. -/
def Query.same : Query → Query → Bool
  | ⟨distinct, select, sources, condition, groupBy, having, orderBy⟩,
    ⟨distinct', select', sources', condition', groupBy', having', orderBy'⟩ =>
    distinct == distinct' && SelectItem.sameList select select' && sources == sources'
      && Expr.sameOption condition condition' && Expr.sameList groupBy groupBy'
      && Expr.sameOption having having' && OrderItem.sameList orderBy orderBy'

end

end ObjectQuery

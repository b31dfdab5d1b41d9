import ObjectQuery.Sql.Statement

/-!
Contract: the tables that a statement names and those that it declares.

Owns:
- `Term.names` and `Term.nested`, what a term names and which selects stand in it, both outside
  those selects;
- `Select.names`, `Select.nested` and `Select.declared`, the same for a select and its from list.

Does not own: which names are in reach.
-/

namespace ObjectQuery.Sql

mutual

/-- The tables that the columns and the `.*` marks of a term name, selects in it aside. -/
def Term.names : Term → List RowAlias
  | .literal _ | .truth _ | .parameter _ | .raw _ | .allColumns | .rowCount => []
  | .column ref => [ref.table]
  | .rowOf table => [table]
  | .call _ arguments => Term.namesOfEach arguments
  | .negate operand | .not operand | .isTrue operand | .nullTest operand _ => operand.names
  | .infixed _ left right => left.names ++ right.names
  | .oneOf operand candidates => operand.names ++ Term.namesOfEach candidates
  | .caseOf selector _ => [selector.table]
  | .subselect _ | .nonempty _ => []

/-- The tables that several terms name. -/
def Term.namesOfEach : List Term → List RowAlias
  | [] => []
  | t :: rest => t.names ++ Term.namesOfEach rest

end

mutual

/-- The selects that stand in a term, those in other selects aside. -/
def Term.nested : Term → List Select
  | .literal _ | .truth _ | .parameter _ | .raw _ | .allColumns | .rowCount => []
  | .column _ | .rowOf _ | .caseOf .. => []
  | .call _ arguments => Term.nestedInEach arguments
  | .negate operand | .not operand | .isTrue operand | .nullTest operand _ => operand.nested
  | .infixed _ left right => left.nested ++ right.nested
  | .oneOf operand candidates => operand.nested ++ Term.nestedInEach candidates
  | .subselect select | .nonempty select => [select]

/-- The selects that stand in several terms. -/
def Term.nestedInEach : List Term → List Select
  | [] => []
  | t :: rest => t.nested ++ Term.nestedInEach rest

end

/-- The columns of a conjunct that are not part of a term. -/
def Condition.columns : Condition → List ColumnRef
  | .restriction kept => [kept.selector]
  | .sameColumn left right => [left, right]
  | .hasValue left _ => [left]
  | .term _ => []

/-- The term of a conjunct. -/
def Condition.terms : Condition → List Term
  | .restriction _ | .sameColumn .. => []
  | .hasValue _ right => [right]
  | .term t => [t]

/-- The tables that the `on` condition of a join names. -/
def Join.names (join : Join) : List RowAlias :=
  [join.owner.table, join.name] ++ join.restriction.toList.map (·.selector.table)

/-- The tables that an item of a from list declares. -/
def Source.declared (source : Source) : List RowAlias :=
  source.name :: source.joins.map (·.name)

namespace Select

/-- The terms of all clauses. -/
def terms (select : Select) : List Term :=
  select.items.map (·.term) ++ select.conditions.flatMap Condition.terms ++ select.groupBy
    ++ select.having.toList ++ select.orderBy.map (·.term)

/-- The tables that the clauses of a select name outside its from list, nested selects aside. -/
def names (select : Select) : List RowAlias :=
  select.terms.flatMap Term.names
    ++ (select.conditions.flatMap Condition.columns).map (·.table)

/-- The selects that stand in the clauses of a select, those in other selects aside. -/
def nested (select : Select) : List Select :=
  select.terms.flatMap Term.nested

/-- The tables that the from list of a select declares. -/
def declared (select : Select) : List RowAlias :=
  select.sources.flatMap Source.declared

end Select

/-- The terms of the select list and of the clauses where, group by, having and order by. -/
abbrev ClauseTerms := List Item × Option Term × List Term × Option Term × List OrderKey

theorem Term.namesOfEach_eq (terms : List Term) :
    Term.namesOfEach terms = terms.flatMap Term.names := by
  induction terms with
  | nil => rfl
  | cons t rest inductionHypothesis =>
    rw [Term.namesOfEach, inductionHypothesis, List.flatMap_cons]

theorem Term.nestedInEach_eq (terms : List Term) :
    Term.nestedInEach terms = terms.flatMap Term.nested := by
  induction terms with
  | nil => rfl
  | cons t rest inductionHypothesis =>
    rw [Term.nestedInEach, inductionHypothesis, List.flatMap_cons]

/-- The position of a value does not change what it names. -/
@[simp]
theorem names_hostTyped (role : Role) (t : Term) : (role.hostTyped t).names = t.names := by
  cases role <;> simp [Role.hostTyped, Term.names]

@[simp]
theorem nested_hostTyped (role : Role) (t : Term) : (role.hostTyped t).nested = t.nested := by
  cases role <;> simp [Role.hostTyped, Term.nested]

end ObjectQuery.Sql

import ObjectQuery.Sql.Scope
import ObjectQuery.Sql.Text

/-!
Contract: the SQL statement of a query.

Each query becomes a select whose first conjuncts keep the rows of its classes, and each collection
test a correlated select nested in it.

Owns:
- `Role`, the position in which an expression stands;
- `Expr.toTerm` and `Query.toSelect`;
- `Schema.toSql` and `Schema.toSqlWhere`, which give the text.
-/

namespace ObjectQuery.Sql

/-- The position of an expression: a value, a condition, or the operand of a null test, which is
written as it stands. -/
inductive Role where
  | value
  | condition
  | plain
deriving DecidableEq, Repr

/-- A value whose type is not known: as a condition it is compared with true. -/
def Role.hostTyped (role : Role) (t : Term) : Term :=
  match role with
  | .condition => .isTrue t
  | .value | .plain => t

/-- A boolean: as a value it is a literal, elsewhere a condition that always or never holds. -/
def Role.boolean (role : Role) (value : Bool) : Term :=
  match role with
  | .value => .literal (.boolean value)
  | .condition | .plain => .truth value

/-- A comparison with null is a null test; this tells whether the test is negated. -/
def nullComparison? (op : RelationalOp) (left right : Expr) : Option Bool :=
  if left.isNullLiteral || right.isNullLiteral then
    match op with
    | .equal => some false
    | .notEqual => some true
    | _ => none
  else
    none

theorem isNullLiteral_of_nullComparison? {op : RelationalOp} {left right : Expr} {negated : Bool}
    (comparison : nullComparison? op left right = some negated) :
    left.isNullLiteral = true ∨ right.isNullLiteral = true := by
  unfold nullComparison? at comparison
  split at comparison
  · next isNull => exact Bool.or_eq_true_iff.mp isNull
  · cases comparison

/-- The class of a row as a value: the name of its class, or a case distinction by the selector in a
hierarchy. -/
def classTagTerm (schema : Schema) (row : Row) : Term :=
  let selector? :=
    if schema.hasSubclassing row.className then schema.selectorField? row.className else none
  match selector? with
  | none => .literal (.string row.className)
  | some selector =>
    let classes := (schema.find? row.className).toList ++ schema.subclasses row.className
    let branches := (classes.filter (!·.isAbstract)).filterMap fun c =>
      c.selectorValue.map fun value => (value, c.name)
    if branches.isEmpty then .literal .null else .caseOf ⟨row.name, selector.column⟩ branches

/-- Adds from items to a scope, with the conditions that keep the rows of their classes. -/
def addSources (schema : Schema) : Scope → List FromItem → Except Error (Scope × List Condition)
  | scope, [] => .ok (scope, [])
  | scope, item :: rest => do
    let _ ← schema.require item.className
    let table ← requireTable schema item.className
    let restriction ← restrictionOf schema scope.nextName item.className
    let (scope, others) ←
      addSources schema (scope.addEntry (some item.className) item.label table) rest
    pure (scope, restriction.toList.map .restriction ++ others)

/-- The scope of a collection, the conditions that tie its rows to the owner's key, and the row of
the elements with its class where it is part of the scope. -/
structure Membership where
  scope : Scope
  conditions : List Condition
  member : Option Row

/-- Sets up the scope of a collection. Elements linked through a table of pairs are part of it only
when something is said about them. -/
def membership
    (schema : Schema)
    (depth : Nat)
    (collection : CollectionDef)
    (ownerKey : ColumnRef)
    (elementsMatter : Bool) : Except Error Membership :=
  let start := Scope.empty depth
  match collection.storage with
  | .oneToMany element foreignField => do
    let table ← requireTable schema element
    let scope := start.addEntry (some element) none table
    let foreign ← schema.requireField element foreignField
    pure ⟨scope, [.sameColumn ⟨start.nextName, foreign.column⟩ ownerKey],
      some ⟨start.nextName, element⟩⟩
  | .manyToMany element associationTable ownerColumn elementColumn => do
    let link := start.nextName
    let linked := start.addEntry none none associationTable
    let ownerLink : Condition := .sameColumn ⟨link, ownerColumn⟩ ownerKey
    if elementsMatter then
      let table ← requireTable schema element
      let name := linked.nextName
      let scope := { linked.addEntry (some element) none table with root := 1 }
      let key ← requireKeyColumn schema element
      pure ⟨scope, [ownerLink, .sameColumn ⟨link, elementColumn⟩ ⟨name, key⟩],
        some ⟨name, element⟩⟩
    else
      pure ⟨linked, [ownerLink], none⟩

/-- The conditions on the row of the elements: those that keep its class, and the equality of its
key with a value if one is given. -/
def memberConditions (schema : Schema) (member : Option Row) (wanted : Option Term) :
    Except Error (List Condition) :=
  match member with
  | none => .ok []
  | some row => do
    let restriction ← restrictionOf schema row.name row.className
    let kept := restriction.toList.map Condition.restriction
    match wanted with
    | none => pure kept
    | some term =>
      let key ← requireKeyColumn schema row.className
      pure (kept ++ [.hasValue ⟨row.name, key⟩ term])

/-- A select over a collection. -/
def collectionSelect (item : Term) (scope : Scope) (conditions : List Condition) : Select where
  distinct := false
  items := [⟨item, none⟩]
  sources := scope.sources
  conditions := conditions
  groupBy := []
  having := none
  orderBy := []

/-- A collection that is reached from the rows at hand, with the key column of its owner. -/
def resolveCollection (schema : Schema) (owner : List String) (collection : String) :
    Scoped (CollectionDef × ColumnRef) := do
  let row ← resolveRow schema owner
  let found ← schema.requireCollection row.className collection
  let key ← requireKeyColumn schema row.className
  pure (found, ⟨row.name, key⟩)

end Sql

open Sql

mutual

/-- An expression as a term of SQL. -/
def Expr.toTerm (schema : Schema) (role : Role) : Expr → Scoped Term
  | .literal value => pure (.literal value)
  | .parameter index _ => pure (role.hostTyped (.parameter index))
  | .path p => do pure (role.hostTyped (.column (← resolveColumn schema p)))
  | .binary op left right => do
    let l ← left.toTerm schema .value
    let r ← right.toTerm schema .value
    pure (.infixed op.symbol l r)
  | .negate operand => do pure (.negate (← operand.toTerm schema .value))
  | .call function arguments => do
    pure (role.hostTyped (.call function (← Expr.toArguments schema arguments)))
  | .raw source => pure (.raw source)
  | .query q => do pure (.subselect (← q.toSelect schema))
  | .and left right => do
    let l ← left.toTerm schema .condition
    let r ← right.toTerm schema .condition
    pure (.infixed "and" l r)
  | .or left right => do
    let l ← left.toTerm schema .condition
    let r ← right.toTerm schema .condition
    pure (.infixed "or" l r)
  | .not operand => do pure (.not (← operand.toTerm schema .condition))
  | .relational op left right =>
    match nullComparison? op left right with
    | some negated => do
      let tested ←
        if right.isNullLiteral then left.toTerm schema .plain else right.toTerm schema .plain
      pure (.nullTest tested negated)
    | none => do
      let l ← left.toTerm schema .value
      let r ← right.toTerm schema .value
      pure (.infixed op.symbol l r)
  | .oneOf operand candidates =>
    if candidates.isEmpty then
      pure (.truth false)
    else do
      let o ← operand.toTerm schema .value
      let cs ← Expr.toTerms schema candidates
      pure (.oneOf o cs)
  | .nullTest operand negated => do
    pure (.nullTest (← operand.toTerm schema .plain) negated)
  | .boolean value => pure (role.boolean value)
  | .nonempty q => do pure (.nonempty (← q.toSelect schema))
  | .count owner collection => do
    let (found, ownerKey) ← resolveCollection schema owner collection
    let depth := (← get).length
    let setup ← membership schema depth found ownerKey false
    let kept ← memberConditions schema setup.member none
    pure (.subselect (collectionSelect .rowCount setup.scope (setup.conditions ++ kept)))
  | .contains owner collection element => do
    let (found, ownerKey) ← resolveCollection schema owner collection
    if element.isBoolean then
      let depth := (← get).length
      let setup ← membership schema depth found ownerKey true
      let kept ← memberConditions schema setup.member none
      let (scope, test) ← within setup.scope (element.toTerm schema .plain)
      pure (.nonempty
        (collectionSelect .allColumns scope (setup.conditions ++ kept ++ [.term test])))
    else
      let wanted ← element.toTerm schema .value
      let depth := (← get).length
      let setup ← membership schema depth found ownerKey true
      let kept ← memberConditions schema setup.member (some wanted)
      pure (.nonempty
        (collectionSelect .allColumns setup.scope (setup.conditions ++ kept)))
  | .asterisk owner => do pure (.rowOf (← resolveRow schema owner).name)
  | .classTag owner => do pure (classTagTerm schema (← resolveRow schema owner))

/-- Several values. -/
def Expr.toTerms (schema : Schema) : List Expr → Scoped (List Term)
  | [] => pure []
  | e :: rest => do
    let t ← e.toTerm schema .value
    pure (t :: (← Expr.toTerms schema rest))

/-- The arguments of a function, of which a bare `*` stands for itself. -/
def Expr.toArguments (schema : Schema) : List Expr → Scoped (List Term)
  | [] => pure []
  | e :: rest => do
    let t ← if e.isBareAsterisk then pure .allColumns else e.toTerm schema .value
    pure (t :: (← Expr.toArguments schema rest))

/-- A condition, if it is there. -/
def Expr.toOption (schema : Schema) : Option Expr → Scoped (Option Term)
  | none => pure none
  | some e => do pure (some (← e.toTerm schema .condition))

/-- A select list. -/
def SelectItem.toItems (schema : Schema) : List SelectItem → Scoped (List Item)
  | [] => pure []
  | ⟨expression, label⟩ :: rest => do
    let t ← expression.toTerm schema .value
    pure (⟨t, label⟩ :: (← SelectItem.toItems schema rest))

/-- An order-by list. -/
def OrderItem.toKeys (schema : Schema) : List OrderItem → Scoped (List OrderKey)
  | [] => pure []
  | ⟨expression, ascending⟩ :: rest => do
    let t ← expression.toTerm schema .value
    pure (⟨t, ascending⟩ :: (← OrderItem.toKeys schema rest))

/-- A query as a select statement. The clauses are taken in the order select list, where, group by,
having, order by. -/
def Query.toSelect (schema : Schema) : Query → Scoped Select
  | ⟨distinct, select, sources, condition, groupBy, having, orderBy⟩ => do
    if sources.isEmpty then throw .emptyFrom
    let depth := (← get).length
    let (scope, restrictions) ← addSources schema (Scope.empty depth) sources
    let (scope, items, filter, groups, kept, keys) ← within scope do
      let items ← SelectItem.toItems schema select
      let filter ← Expr.toOption schema condition
      let groups ← Expr.toTerms schema groupBy
      let kept ← Expr.toOption schema having
      let keys ← OrderItem.toKeys schema orderBy
      pure (items, filter, groups, kept, keys)
    pure ⟨distinct, items, scope.sources, restrictions ++ filter.toList.map .term, groups, kept,
      keys⟩

end

namespace Schema

/-- A query as an SQL statement. -/
def toSelect (schema : Schema) (query : Query) : Except Error Select := do
  let (select, _) ← (query.toSelect schema).run []
  pure select

/-- A query as SQL text. -/
def toSql (schema : Schema) (config : Config) (query : Query) : Except Error String := do
  pure ((← schema.toSelect query).text config)

/-- All objects of a class that satisfy a condition, as SQL text. -/
def toSqlWhere
    (schema : Schema)
    (config : Config)
    (className : String)
    (condition : Expr) : Except Error String :=
  schema.toSql config (.selectAll className (some condition))

end Schema

end ObjectQuery

import ObjectQuery.Proofs.Sql.Openings

/-!
Contract: the translation of an expression as a course of tasks.

Whatever its kind, an expression is translated by some tasks in the scopes at hand, one after
another, and then by at most one level: a scope that is opened in front of the others, the tasks in
it, and a select over its tables.

Owns:
- `Task`, `Expr.tasks`, `Query.tasks` and `Opens`, the tasks of an expression and its level;
- `FlatRun` and `LevelRun`, what a successful translation comes to.

Does not own: courses of several tasks.
-/

namespace ObjectQuery.Sql

/-- Something to be done in the scopes at hand: the look-up of a row, or the translation of an
expression. -/
inductive Task where
  | row (names : List String)
  | term (role : Role) (e : Expr)

end Sql

open Sql

/-- The node is translated into a select over a level of its own. -/
def Expr.opensLevel : Expr → Bool
  | .query _ | .nonempty _ | .count .. | .contains .. => true
  | _ => false

/-- What is done for an expression in the scopes at hand, in this order. -/
def Expr.tasks : Expr → List Task
  | .literal _ | .parameter .. | .raw _ | .boolean _ | .query _ | .nonempty _ => []
  | .path p => [.row p.owner]
  | .asterisk owner | .classTag owner | .count owner _ => [.row owner]
  | .contains owner _ element =>
    if element.isBoolean then [.row owner] else [.row owner, .term .value element]
  | .binary _ left right => [.term .value left, .term .value right]
  | .negate operand => [.term .value operand]
  | .call _ arguments => (arguments.filter (!·.isBareAsterisk)).map (.term .value)
  | .and left right | .or left right => [.term .condition left, .term .condition right]
  | .not operand => [.term .condition operand]
  | .relational op left right =>
    match nullComparison? op left right with
    | some _ => [.term .plain (if right.isNullLiteral then left else right)]
    | none => [.term .value left, .term .value right]
  | .oneOf operand candidates =>
    if candidates.isEmpty then [] else .term .value operand :: candidates.map (.term .value)
  | .nullTest operand _ => [.term .plain operand]

/-- What is done for a query in its own scope, in the order of the clauses. -/
def Query.tasks (query : Query) : List Task :=
  query.select.map (fun item => .term .value item.expression)
    ++ query.condition.toList.map (.term .condition)
    ++ query.groupBy.map (.term .value)
    ++ query.having.toList.map (.term .condition)
    ++ query.orderBy.map (fun item => .term .value item.expression)

namespace Sql

/-- An expression that is met in some scopes opens a level over others, which are those after its
tasks: `scope` is the scope of the level and `body` the tasks in it. A collection test has a body
when it is one by kind. -/
inductive Opens (schema : Schema) : Expr → Scopes → Scopes → Scope → List Task → Prop
  | query {q : Query} {scopes : Scopes} {scope : Scope} {kept : List Condition}
      (nonempty : q.sources ≠ [])
      (opened : addSources schema (.empty scopes.length) q.sources = .ok (scope, kept)) :
      Opens schema (.query q) scopes scopes scope q.tasks
  | nonempty {q : Query} {scopes : Scopes} {scope : Scope} {kept : List Condition}
      (nonempty : q.sources ≠ [])
      (opened : addSources schema (.empty scopes.length) q.sources = .ok (scope, kept)) :
      Opens schema (.nonempty q) scopes scopes scope q.tasks
  | count {owner : List String} {collection : String} {scopes below : Scopes}
      {found : CollectionDef} {key : ColumnRef} {setup : Membership}
      (resolved : (resolveCollection schema owner collection).run scopes
        = .ok ((found, key), below))
      (opened : membership schema below.length found key false = .ok setup) :
      Opens schema (.count owner collection) scopes below setup.scope []
  | condition {owner : List String} {collection : String} {element : Expr}
      {scopes below : Scopes} {found : CollectionDef} {key : ColumnRef} {setup : Membership}
      (kind : element.isBoolean = true)
      (resolved : (resolveCollection schema owner collection).run scopes
        = .ok ((found, key), below))
      (opened : membership schema below.length found key true = .ok setup) :
      Opens schema (.contains owner collection element) scopes below setup.scope
        [.term .plain element]
  | value {owner : List String} {collection : String} {element : Expr}
      {scopes between below : Scopes} {found : CollectionDef} {key : ColumnRef} {wanted : Term}
      {setup : Membership}
      (kind : element.isBoolean = false)
      (resolved : (resolveCollection schema owner collection).run scopes
        = .ok ((found, key), between))
      (translated : (element.toTerm schema .value).run between = .ok (wanted, below))
      (opened : membership schema below.length found key true = .ok setup) :
      Opens schema (.contains owner collection element) scopes below setup.scope []

/-- A task is done. The term of a look-up is all columns of the row. -/
def Task.run (schema : Schema) : Task → Scoped Term
  | .row names => do pure (.rowOf (← resolveRow schema names).name)
  | .term role e => e.toTerm schema role

/-- Tasks are done one after another. -/
def runInTurn (schema : Schema) : List Task → Scoped (List Term)
  | [] => pure []
  | task :: rest => do
    let t ← task.run schema
    pure (t :: (← runInTurn schema rest))

variable {schema : Schema}

/-! ## Tasks in turn -/

section

variable {scopes scopes' : Scopes} {terms : List Term}

@[simp]
theorem run_row_eq_ok {names : List String} {t : Term} :
    ((Task.row names).run schema).run scopes = .ok (t, scopes') ↔
      ∃ row, (resolveRow schema names).run scopes = .ok (row, scopes') ∧ t = .rowOf row.name := by
  simp only [Task.run, run_bind_eq_ok, run_pure_eq_ok]
  constructor
  · rintro ⟨row, _, resolved, rfl, rfl⟩
    exact ⟨row, resolved, rfl⟩
  · rintro ⟨row, resolved, rfl⟩
    exact ⟨row, _, resolved, rfl, rfl⟩

@[simp]
theorem runInTurn_nil_eq_ok :
    (runInTurn schema []).run scopes = .ok (terms, scopes') ↔ terms = [] ∧ scopes = scopes' := by
  rw [runInTurn, run_pure_eq_ok, eq_comm]

@[simp]
theorem runInTurn_cons_eq_ok {task : Task} {rest : List Task} :
    (runInTurn schema (task :: rest)).run scopes = .ok (terms, scopes') ↔
      ∃ t between others, (task.run schema).run scopes = .ok (t, between) ∧
        (runInTurn schema rest).run between = .ok (others, scopes') ∧ terms = t :: others := by
  simp only [runInTurn, run_bind_eq_ok, run_pure_eq_ok]
  constructor
  · rintro ⟨t, between, first, others, _, later, rfl, rfl⟩
    exact ⟨t, between, others, first, later, rfl⟩
  · rintro ⟨t, between, others, first, later, rfl⟩
    exact ⟨t, between, first, others, _, later, rfl, rfl⟩

theorem runInTurn_append {first second : List Task} {between : Scopes} {terms' : List Term}
    (ran : (runInTurn schema first).run scopes = .ok (terms, between))
    (ran' : (runInTurn schema second).run between = .ok (terms', scopes')) :
    (runInTurn schema (first ++ second)).run scopes = .ok (terms ++ terms', scopes') := by
  induction first generalizing scopes terms with
  | nil =>
    obtain ⟨rfl, rfl⟩ := runInTurn_nil_eq_ok.mp ran
    exact ran'
  | cons task rest inductionHypothesis =>
    obtain ⟨t, _, others, head, later, rfl⟩ := runInTurn_cons_eq_ok.mp ran
    exact runInTurn_cons_eq_ok.mpr ⟨t, _, _, head, inductionHypothesis later, rfl⟩

theorem runInTurn_of_toTerms {es : List Expr}
    (ran : (Expr.toTerms schema es).run scopes = .ok (terms, scopes')) :
    (runInTurn schema (es.map (.term .value))).run scopes = .ok (terms, scopes') := by
  induction es generalizing scopes terms with
  | nil =>
    rw [Expr.toTerms, run_pure_eq_ok] at ran
    exact runInTurn_nil_eq_ok.mpr ⟨ran.1.symm, ran.2⟩
  | cons e rest inductionHypothesis =>
    simp only [Expr.toTerms, run_bind_eq_ok, run_pure_eq_ok] at ran
    obtain ⟨t, between, first, others, _, later, rfl, rfl⟩ := ran
    exact runInTurn_cons_eq_ok.mpr ⟨t, between, others, first, inductionHypothesis later, rfl⟩

/-- A bare `*` among arguments is no task and adds nothing. -/
theorem runInTurn_of_toArguments {es : List Expr}
    (ran : (Expr.toArguments schema es).run scopes = .ok (terms, scopes')) :
    ∃ parts, (runInTurn schema ((es.filter (!·.isBareAsterisk)).map (.term .value))).run scopes
        = .ok (parts, scopes') ∧
      terms.flatMap Term.names = parts.flatMap Term.names ∧
        terms.flatMap Term.nested = parts.flatMap Term.nested := by
  induction es generalizing scopes terms with
  | nil =>
    rw [Expr.toArguments, run_pure_eq_ok] at ran
    obtain ⟨rfl, rfl⟩ := ran
    exact ⟨[], runInTurn_nil_eq_ok.mpr ⟨rfl, rfl⟩, rfl, rfl⟩
  | cons e rest inductionHypothesis =>
    cases bare : e.isBareAsterisk with
    | true =>
      simp only [Expr.toArguments, bare, if_true, run_bind_eq_ok, run_pure_eq_ok] at ran
      obtain ⟨_, _, ⟨rfl, rfl⟩, others, _, later, rfl, rfl⟩ := ran
      obtain ⟨parts, ranRest, sameNames, sameNested⟩ := inductionHypothesis later
      refine ⟨parts, by simpa [bare] using ranRest, ?_, ?_⟩
      · simpa [Term.names] using sameNames
      · simpa [Term.nested] using sameNested
    | false =>
      simp only [Expr.toArguments, bare, Bool.false_eq_true, if_false, run_bind_eq_ok,
        run_pure_eq_ok] at ran
      obtain ⟨t, between, first, others, _, later, rfl, rfl⟩ := ran
      obtain ⟨parts, ranRest, sameNames, sameNested⟩ := inductionHypothesis later
      refine ⟨t :: parts, ?_, by simp [sameNames], by simp [sameNested]⟩
      rw [List.filter_cons_of_pos (by simp [bare]), List.map_cons, runInTurn_cons_eq_ok]
      exact ⟨t, between, parts, first, ranRest, rfl⟩

theorem runInTurn_of_toOption {e : Option Expr} {t : Option Term}
    (ran : (Expr.toOption schema e).run scopes = .ok (t, scopes')) :
    (runInTurn schema (e.toList.map (.term .condition))).run scopes = .ok (t.toList, scopes') := by
  cases e with
  | none =>
    rw [Expr.toOption, run_pure_eq_ok] at ran
    obtain ⟨rfl, rfl⟩ := ran
    exact runInTurn_nil_eq_ok.mpr ⟨rfl, rfl⟩
  | some e =>
    simp only [Expr.toOption, run_bind_eq_ok, run_pure_eq_ok] at ran
    obtain ⟨t, _, first, rfl, rfl⟩ := ran
    exact runInTurn_cons_eq_ok.mpr ⟨t, _, [], first, runInTurn_nil_eq_ok.mpr ⟨rfl, rfl⟩, rfl⟩

theorem runInTurn_of_toItems {select : List SelectItem} {items : List Item}
    (ran : (SelectItem.toItems schema select).run scopes = .ok (items, scopes')) :
    (runInTurn schema (select.map fun item => .term .value item.expression)).run scopes
      = .ok (items.map (·.term), scopes') := by
  induction select generalizing scopes items with
  | nil =>
    rw [SelectItem.toItems, run_pure_eq_ok] at ran
    obtain ⟨rfl, rfl⟩ := ran
    exact runInTurn_nil_eq_ok.mpr ⟨rfl, rfl⟩
  | cons item rest inductionHypothesis =>
    obtain ⟨expression, label⟩ := item
    simp only [SelectItem.toItems, run_bind_eq_ok, run_pure_eq_ok] at ran
    obtain ⟨t, between, first, others, _, later, rfl, rfl⟩ := ran
    exact runInTurn_cons_eq_ok.mpr ⟨t, between, _, first, inductionHypothesis later, rfl⟩

theorem runInTurn_of_toKeys {order : List OrderItem} {keys : List OrderKey}
    (ran : (OrderItem.toKeys schema order).run scopes = .ok (keys, scopes')) :
    (runInTurn schema (order.map fun item => .term .value item.expression)).run scopes
      = .ok (keys.map (·.term), scopes') := by
  induction order generalizing scopes keys with
  | nil =>
    rw [OrderItem.toKeys, run_pure_eq_ok] at ran
    obtain ⟨rfl, rfl⟩ := ran
    exact runInTurn_nil_eq_ok.mpr ⟨rfl, rfl⟩
  | cons item rest inductionHypothesis =>
    obtain ⟨expression, ascending⟩ := item
    simp only [OrderItem.toKeys, run_bind_eq_ok, run_pure_eq_ok] at ran
    obtain ⟨t, between, first, others, _, later, rfl, rfl⟩ := ran
    exact runInTurn_cons_eq_ok.mpr ⟨t, between, _, first, inductionHypothesis later, rfl⟩

end

/-! ## What is done for an expression -/

/-- An expression without a level of its own: its term is made of those of its tasks. -/
structure FlatRun
    (schema : Schema)
    (e : Expr)
    (scopes : Scopes)
    (t : Term)
    (scopes' : Scopes) where
  parts : List Term
  ran : (runInTurn schema e.tasks).run scopes = .ok (parts, scopes')
  names_subset : t.names ⊆ parts.flatMap Term.names
  nested_eq : t.nested = parts.flatMap Term.nested

/-- An expression with a level of its own: after its tasks the level is opened and its body done,
and the term is a select over the tables that the level has then. -/
structure LevelRun
    (schema : Schema)
    (e : Expr)
    (scopes : Scopes)
    (t : Term)
    (scopes' : Scopes) where
  parts : List Term
  below : Scopes
  scope : Scope
  body : List Task
  clauses : List Term
  last : Scope
  select : Select
  before : (runInTurn schema e.tasks).run scopes = .ok (parts, below)
  opens : Opens schema e scopes below scope body
  inside : (runInTurn schema body).run (scope :: below) = .ok (clauses, last :: scopes')
  names_eq : t.names = []
  nested_eq : t.nested = [select]
  sources_eq : select.sources = last.sources
  names_subset :
    select.names ⊆ parts.flatMap Term.names ++ clauses.flatMap Term.names ++ scope.names
  nested_in_eq : select.nested = parts.flatMap Term.nested ++ clauses.flatMap Term.nested
  restricts : Restricts schema scope.entries select.conditions

section

variable {scopes scopes' : Scopes}

theorem row_of_resolveColumn {path : Path} {ref : ColumnRef}
    (ran : (resolveColumn schema path).run scopes = .ok (ref, scopes')) :
    ∃ row, (resolveRow schema path.owner).run scopes = .ok (row, scopes') ∧
      ref.table = row.name := by
  simp only [resolveColumn, run_bind_eq_ok, run_lift_eq_ok, run_pure_eq_ok] at ran
  obtain ⟨row, _, resolved, field, _, ⟨-, rfl⟩, rfl, rfl⟩ := ran
  exact ⟨row, resolved, rfl⟩

theorem row_of_resolveCollection {owner : List String} {collection : String}
    {found : CollectionDef} {key : ColumnRef}
    (ran : (resolveCollection schema owner collection).run scopes = .ok ((found, key), scopes')) :
    ∃ row, (resolveRow schema owner).run scopes = .ok (row, scopes') ∧ key.table = row.name ∧
      schema.requireCollection row.className collection = .ok found := by
  simp only [resolveCollection, run_bind_eq_ok, run_lift_eq_ok, run_pure_eq_ok] at ran
  obtain ⟨row, _, resolved, _, _, ⟨required, rfl⟩, _, _, ⟨-, rfl⟩, same, rfl⟩ := ran
  obtain ⟨rfl, rfl⟩ := Prod.mk.inj same
  exact ⟨row, resolved, rfl, required⟩

theorem names_classTagTerm (row : Row) : (classTagTerm schema row).names ⊆ [row.name] := by
  rw [classTagTerm]
  split
  · exact List.nil_subset _
  · dsimp only
    split
    · exact List.nil_subset _
    · exact List.Subset.refl _

theorem nested_classTagTerm (row : Row) : (classTagTerm schema row).nested = [] := by
  rw [classTagTerm]
  split
  · rfl
  · dsimp only
    split <;> rfl

theorem runInTurn_row {names : List String} {row : Row}
    (resolved : (resolveRow schema names).run scopes = .ok (row, scopes')) :
    (runInTurn schema [.row names]).run scopes = .ok ([.rowOf row.name], scopes') := by
  simp [resolved]

theorem runInTurn_single {role : Role} {e : Expr} {t : Term}
    (ran : (e.toTerm schema role).run scopes = .ok (t, scopes')) :
    (runInTurn schema [.term role e]).run scopes = .ok ([t], scopes') := by
  simp [Task.run, ran]

theorem runInTurn_pair {role role' : Role} {e e' : Expr} {t t' : Term} {between : Scopes}
    (ran : (e.toTerm schema role).run scopes = .ok (t, between))
    (ran' : (e'.toTerm schema role').run between = .ok (t', scopes')) :
    (runInTurn schema [.term role e, .term role' e']).run scopes = .ok ([t, t'], scopes') :=
  runInTurn_append (runInTurn_single ran) (runInTurn_single ran')

theorem exists_flatRun {role : Role} {e : Expr} {t : Term}
    (flat : e.opensLevel = false)
    (ran : (e.toTerm schema role).run scopes = .ok (t, scopes')) :
    Nonempty (FlatRun schema e scopes t scopes') := by
  cases e with
  | query _ | nonempty _ | count _ _ | contains _ _ _ => cases flat
  | literal _ | raw _ =>
    rw [Expr.toTerm, run_pure_eq_ok] at ran
    obtain ⟨rfl, rfl⟩ := ran
    exact ⟨⟨[], by simp [Expr.tasks], List.Subset.refl _, rfl⟩⟩
  | parameter _ _ =>
    rw [Expr.toTerm, run_pure_eq_ok] at ran
    obtain ⟨rfl, rfl⟩ := ran
    exact ⟨⟨[], by simp [Expr.tasks], by simp [Term.names], by simp [Term.nested]⟩⟩
  | boolean _ =>
    rw [Expr.toTerm, run_pure_eq_ok] at ran
    obtain ⟨rfl, rfl⟩ := ran
    exact ⟨⟨[], by simp [Expr.tasks], by cases role <;> exact List.Subset.refl _,
      by cases role <;> rfl⟩⟩
  | path p =>
    simp only [Expr.toTerm, run_bind_eq_ok, run_pure_eq_ok] at ran
    obtain ⟨ref, _, resolved, rfl, rfl⟩ := ran
    obtain ⟨row, resolvedRow, sameRow⟩ := row_of_resolveColumn resolved
    exact ⟨⟨_, runInTurn_row resolvedRow, by simp [Term.names, sameRow], by simp [Term.nested]⟩⟩
  | asterisk owner =>
    simp only [Expr.toTerm, run_bind_eq_ok, run_pure_eq_ok] at ran
    obtain ⟨row, _, resolved, rfl, rfl⟩ := ran
    exact ⟨⟨_, runInTurn_row resolved, by simp, by simp⟩⟩
  | classTag owner =>
    simp only [Expr.toTerm, run_bind_eq_ok, run_pure_eq_ok] at ran
    obtain ⟨row, _, resolved, rfl, rfl⟩ := ran
    refine ⟨⟨_, runInTurn_row resolved, ?_, ?_⟩⟩
    · simpa [Term.names] using names_classTagTerm row
    · simpa [Term.nested] using nested_classTagTerm row
  | binary _ left right | and left right | or left right =>
    simp only [Expr.toTerm, run_bind_eq_ok, run_pure_eq_ok] at ran
    obtain ⟨l, between, ranLeft, r, _, ranRight, rfl, rfl⟩ := ran
    exact ⟨⟨_, runInTurn_pair ranLeft ranRight, by simp [Term.names], by simp [Term.nested]⟩⟩
  | negate operand | not operand | nullTest operand _ =>
    simp only [Expr.toTerm, run_bind_eq_ok, run_pure_eq_ok] at ran
    obtain ⟨o, _, ranOperand, rfl, rfl⟩ := ran
    exact ⟨⟨_, runInTurn_single ranOperand, by simp [Term.names], by simp [Term.nested]⟩⟩
  | call _ arguments =>
    simp only [Expr.toTerm, run_bind_eq_ok, run_pure_eq_ok] at ran
    obtain ⟨terms, _, ranArguments, rfl, rfl⟩ := ran
    obtain ⟨parts, ranParts, sameNames, sameNested⟩ := runInTurn_of_toArguments ranArguments
    refine ⟨⟨parts, ranParts, ?_, ?_⟩⟩
    · rw [names_hostTyped, Term.names, Term.namesOfEach_eq, sameNames]
      exact List.Subset.refl _
    · rw [nested_hostTyped, Term.nested, Term.nestedInEach_eq, sameNested]
  | relational op left right =>
    rw [Expr.toTerm] at ran
    cases nulls : nullComparison? op left right with
    | some negated =>
      have tested : ∃ o, ((if right.isNullLiteral then left else right).toTerm schema .plain).run
          scopes = .ok (o, scopes') ∧ t = .nullTest o negated := by
        cases nullRight : right.isNullLiteral <;>
          simp only [nulls, nullRight, Bool.false_eq_true, if_false, if_true, run_bind_eq_ok,
            run_pure_eq_ok] at ran <;>
          obtain ⟨o, _, ranOperand, rfl, rfl⟩ := ran <;>
          exact ⟨o, by simpa using ranOperand, rfl⟩
      obtain ⟨o, ranOperand, rfl⟩ := tested
      refine ⟨⟨[o], ?_, by simp [Term.names], by simp [Term.nested]⟩⟩
      simpa only [Expr.tasks, nulls] using runInTurn_single ranOperand
    | none =>
      simp only [nulls, run_bind_eq_ok, run_pure_eq_ok] at ran
      obtain ⟨l, between, ranLeft, r, _, ranRight, rfl, rfl⟩ := ran
      refine ⟨⟨[l, r], ?_, by simp [Term.names], by simp [Term.nested]⟩⟩
      simpa only [Expr.tasks, nulls] using runInTurn_pair ranLeft ranRight
  | oneOf operand candidates =>
    rw [Expr.toTerm] at ran
    cases candidates with
    | nil =>
      obtain ⟨rfl, rfl⟩ := run_pure_eq_ok.mp ran
      exact ⟨⟨[], by simp [Expr.tasks], List.Subset.refl _, rfl⟩⟩
    | cons first rest =>
      simp only [List.isEmpty_cons, Bool.false_eq_true, if_false, run_bind_eq_ok,
        run_pure_eq_ok] at ran
      obtain ⟨o, between, ranOperand, terms, _, ranCandidates, rfl, rfl⟩ := ran
      have ranRest := runInTurn_of_toTerms ranCandidates
      refine ⟨⟨o :: terms, runInTurn_append (runInTurn_single ranOperand) ranRest, ?_, ?_⟩⟩
      · simp [Term.names, Term.namesOfEach_eq]
      · simp [Term.nested, Term.nestedInEach_eq]

/-- A query opens its scope, does its clauses there and selects from the tables of the scope
then. -/
theorem clauses_of_toSelect {q : Query} {select : Select}
    (ran : (q.toSelect schema).run scopes = .ok (select, scopes')) :
    ∃ scope kept clauses last, q.sources ≠ [] ∧
      addSources schema (.empty scopes.length) q.sources = .ok (scope, kept) ∧
        (runInTurn schema q.tasks).run (scope :: scopes) = .ok (clauses, last :: scopes') ∧
          select.sources = last.sources ∧ select.names ⊆ clauses.flatMap Term.names ++ scope.names ∧
            select.nested = clauses.flatMap Term.nested ∧
              Restricts schema scope.entries select.conditions := by
  obtain ⟨distinct, items, sources, condition, groupBy, having, orderBy⟩ := q
  rw [Query.toSelect] at ran
  cases sources with
  | nil => exact absurd ran (by rintro ⟨⟩)
  | cons first rest =>
    simp only [List.isEmpty_cons, Bool.false_eq_true, if_false, run_bind_eq_ok, run_get_eq_ok,
      run_lift_eq_ok, run_pure_eq_ok] at ran
    obtain ⟨_, _, ⟨rfl, rfl⟩, ⟨scope, kept⟩, _, ⟨added, rfl⟩, ⟨last, result⟩, _, inside, rfl,
      rfl⟩ := ran
    rw [run_within_eq_ok] at inside
    simp only [run_bind_eq_ok, run_pure_eq_ok] at inside
    obtain ⟨selected, _, ranItems, filter, _, ranFilter, groups, _, ranGroups, held, _, ranHaving,
      keys, _, ranKeys, rfl, rfl⟩ := inside
    obtain ⟨-, -, tied, -⟩ := opened_of_addSources (Scope.opened_empty scopes.length) added
    have done := runInTurn_append
      (runInTurn_append
        (runInTurn_append
          (runInTurn_append (runInTurn_of_toItems ranItems) (runInTurn_of_toOption ranFilter))
          (runInTurn_of_toTerms ranGroups))
        (runInTurn_of_toOption ranHaving))
      (runInTurn_of_toKeys ranKeys)
    have filters : (filter.toList.map Condition.term).flatMap Condition.terms = filter.toList := by
      cases filter <;> rfl
    have noColumns : (filter.toList.map Condition.term).flatMap Condition.columns = [] := by
      cases filter <;> rfl
    have noEntries : Restricts schema (Scope.empty scopes.length).entries [] := List.forall_mem_nil _
    have restricts := restricts_of_addSources noEntries added
    refine ⟨scope, kept, _, last, List.cons_ne_nil _ _, added, done, rfl, ?_, ?_,
      restricts.mono (List.subset_append_left _ _)⟩
    · rw [Select.names]
      simp only [Select.terms, List.flatMap_append, tied.terms_eq_nil, filters, noColumns,
        List.nil_append, List.append_nil]
      exact List.append_subset.mpr ⟨List.subset_append_left _ _,
        fun name member => List.mem_append_right _ (tied.tables_subset member)⟩
    · simp only [Select.nested, Select.terms, List.flatMap_append, tied.terms_eq_nil, filters,
        List.nil_append]

theorem exists_levelRun {role : Role} {e : Expr} {t : Term}
    (nests : e.opensLevel = true)
    (ran : (e.toTerm schema role).run scopes = .ok (t, scopes')) :
    Nonempty (LevelRun schema e scopes t scopes') := by
  cases e with
  | literal _ | raw _ | parameter _ _ | boolean _ | path _ | asterisk _ | classTag _ | binary _ _ _
  | and _ _ | or _ _ | negate _ | not _ | nullTest _ _ | call _ _ | relational _ _ _
  | oneOf _ _ => cases nests
  | query q =>
    simp only [Expr.toTerm, run_bind_eq_ok, run_pure_eq_ok] at ran
    obtain ⟨select, _, ranSelect, rfl, rfl⟩ := ran
    obtain ⟨scope, kept, clauses, last, nonempty, added, inside, sources, names, nested,
      restricts⟩ := clauses_of_toSelect ranSelect
    exact ⟨⟨[], scopes, scope, q.tasks, clauses, last, select, by simp [Expr.tasks],
      .query nonempty added, inside, rfl, rfl, sources, names, nested, restricts⟩⟩
  | nonempty q =>
    simp only [Expr.toTerm, run_bind_eq_ok, run_pure_eq_ok] at ran
    obtain ⟨select, _, ranSelect, rfl, rfl⟩ := ran
    obtain ⟨scope, kept, clauses, last, nonempty, added, inside, sources, names, nested,
      restricts⟩ := clauses_of_toSelect ranSelect
    exact ⟨⟨[], scopes, scope, q.tasks, clauses, last, select, by simp [Expr.tasks],
      .nonempty nonempty added, inside, rfl, rfl, sources, names, nested, restricts⟩⟩
  | count owner collection =>
    simp only [Expr.toTerm, run_bind_eq_ok, run_get_eq_ok, run_lift_eq_ok, run_pure_eq_ok] at ran
    obtain ⟨⟨found, key⟩, below, resolved, _, _, ⟨rfl, rfl⟩, setup, _, ⟨opened, rfl⟩, kept, _,
      ⟨conditioned, rfl⟩, rfl, rfl⟩ := ran
    obtain ⟨row, resolvedRow, sameRow, -⟩ := row_of_resolveCollection resolved
    obtain ⟨valid, -⟩ := valid_of_membership opened
    obtain ⟨names, nested⟩ :=
      of_collectionSelect valid conditioned (by simp) (.inl rfl) setup.scope none
    refine ⟨⟨[.rowOf row.name], below, setup.scope, [], [], setup.scope, _,
      runInTurn_row resolvedRow, .count resolved opened, by simp, rfl, rfl, rfl, ?_, ?_, ?_⟩⟩
    · simpa [Term.names, sameRow] using names
    · simpa [Term.nested] using nested
    · exact (restricts_of_memberConditions opened conditioned).mono (List.subset_append_right _ _)
  | contains owner collection element =>
    cases kind : element.isBoolean with
    | true =>
      simp only [Expr.toTerm, kind, if_true, run_bind_eq_ok, run_get_eq_ok, run_lift_eq_ok,
        run_pure_eq_ok] at ran
      obtain ⟨⟨found, key⟩, below, resolved, _, _, ⟨rfl, rfl⟩, setup, _, ⟨opened, rfl⟩, kept, _,
        ⟨conditioned, rfl⟩, ⟨last, test⟩, _, inside, rfl, rfl⟩ := ran
      obtain ⟨row, resolvedRow, sameRow, -⟩ := row_of_resolveCollection resolved
      obtain ⟨valid, -⟩ := valid_of_membership opened
      obtain ⟨names, nested⟩ :=
        of_collectionSelect valid conditioned (by simp) (.inr rfl) last (some test)
      refine ⟨⟨[.rowOf row.name], below, setup.scope, [.term .plain element], [test], last, _,
        ?_, .condition kind resolved opened, runInTurn_single (run_within_eq_ok.mp inside),
        rfl, rfl, rfl, ?_, ?_, ?_⟩⟩
      · simpa [Expr.tasks, kind] using runInTurn_row resolvedRow
      · simpa [Term.names, sameRow] using names
      · simpa [Term.nested] using nested
      · refine (restricts_of_memberConditions opened conditioned).mono fun condition member => ?_
        exact List.mem_append_left _ (List.mem_append_right _ member)
    | false =>
      simp only [Expr.toTerm, kind, Bool.false_eq_true, if_false, run_bind_eq_ok, run_get_eq_ok,
        run_lift_eq_ok, run_pure_eq_ok] at ran
      obtain ⟨⟨found, key⟩, between, resolved, wanted, below, translated, _, _, ⟨rfl, rfl⟩, setup,
        _, ⟨opened, rfl⟩, kept, _, ⟨conditioned, rfl⟩, rfl, rfl⟩ := ran
      obtain ⟨row, resolvedRow, sameRow, -⟩ := row_of_resolveCollection resolved
      obtain ⟨valid, hasMember⟩ := valid_of_membership opened
      obtain ⟨names, nested⟩ :=
        of_collectionSelect valid conditioned (fun _ => hasMember rfl) (.inr rfl) setup.scope none
      refine ⟨⟨[.rowOf row.name, wanted], below, setup.scope, [], [], setup.scope, _,
        ?_, .value kind resolved translated opened, by simp, rfl, rfl, rfl, ?_, ?_, ?_⟩⟩
      · rw [Expr.tasks, kind]
        exact runInTurn_append (runInTurn_row resolvedRow) (runInTurn_single translated)
      · simpa [Term.names, sameRow] using names
      · simpa [Term.nested] using nested
      · exact (restricts_of_memberConditions opened conditioned).mono (List.subset_append_right _ _)

end

end Sql

end ObjectQuery

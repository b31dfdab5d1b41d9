import ObjectQuery.Proofs.Schema.Stored
import ObjectQuery.Proofs.Sql.Mentions
import ObjectQuery.Proofs.Sql.Scoped

/-!
Contract: the names in the scopes of a statement are those of the schema.

Whatever holds of all names that a schema stores holds of the tables and columns of a statement.

Owns:
- `Source.Named` and `Scope.Named`, a condition on the names of tables and columns;
- that look-ups keep it, and that scopes that are set up have it.

Does not own: terms, and which conditions matter.
-/

namespace ObjectQuery.Sql

/-- The names of the tables and columns of a join are valid. -/
structure Join.Named (valid : String → Prop) (join : Join) : Prop where
  table : valid join.table
  owner : valid join.owner.column
  key : valid join.key
  restriction : ∀ restriction ∈ join.restriction, valid restriction.selector.column

/-- The names of a table of a from list are valid, and so are those of its joins. -/
structure Source.Named (valid : String → Prop) (source : Source) : Prop where
  table : valid source.table
  joins : ∀ join ∈ source.joins, join.Named valid

/-- The table and the columns of a joined table have valid names. -/
structure JoinedRow.Named (valid : String → Prop) (join : JoinedRow) : Prop where
  table : valid join.table
  column : valid join.field.column
  key : valid join.key
  restriction : ∀ restriction ∈ join.restriction, valid restriction.selector.column

/-- The tables and columns of a scope have valid names. -/
structure Scope.Named (valid : String → Prop) (scope : Scope) : Prop where
  tables : ∀ entry ∈ scope.entries, valid entry.table
  joins : ∀ join ∈ scope.joins, join.Named valid

/-- The tables and columns of all levels have valid names. -/
def Scopes.Named (valid : String → Prop) (scopes : Scopes) : Prop :=
  ∀ scope ∈ scopes, scope.Named valid

/-- The conditions of a level that hold of its rows whatever the query asks. -/
def Condition.Named (valid : String → Prop) : Condition → Prop
  | .restriction kept => valid kept.selector.column
  | .sameColumn left right => valid left.column ∧ valid right.column
  | .hasValue _ _ | .term _ => False

variable {valid : String → Prop} {scope : Scope} {scopes : Scopes}

theorem Condition.Named.columns {condition : Condition} (named : condition.Named valid) :
    ∀ ref ∈ condition.columns, valid ref.column := by
  cases condition with
  | restriction kept => exact List.forall_mem_singleton.mpr named
  | sameColumn left right =>
    exact List.forall_mem_cons.mpr ⟨named.1, List.forall_mem_singleton.mpr named.2⟩
  | hasValue _ _ | term _ => exact named.elim

theorem Condition.Named.terms {condition : Condition} (named : condition.Named valid) :
    condition.terms = [] := by
  cases condition with
  | restriction kept => rfl
  | sameColumn left right => rfl
  | hasValue _ _ | term _ => exact named.elim

namespace Scope

theorem Named.empty (depth : Nat) : (empty depth).Named valid :=
  ⟨List.forall_mem_nil _, List.forall_mem_nil _⟩

theorem Named.addEntry {className label : Option String} {table : String}
    (named : scope.Named valid)
    (ofTable : valid table) : (scope.addEntry className label table).Named valid where
  tables := List.forall_mem_append.mpr ⟨named.tables, List.forall_mem_singleton.mpr ofTable⟩
  joins := named.joins

theorem Named.addJoin {join : JoinedRow} (named : scope.Named valid) (ofJoin : join.Named valid) :
    (scope.addJoin join).Named valid where
  tables := named.tables
  joins := List.forall_mem_append.mpr ⟨named.joins, List.forall_mem_singleton.mpr ofJoin⟩

theorem Named.sources (named : scope.Named valid) :
    ∀ source ∈ scope.sources, source.Named valid := by
  intro source member
  obtain ⟨place, inside, rfl⟩ := List.mem_mapIdx.mp member
  refine ⟨named.tables _ (List.getElem_mem inside), fun join isJoin => ?_⟩
  obtain ⟨joined, isJoined, rfl⟩ := List.mem_map.mp isJoin
  have ofJoined := named.joins joined (List.mem_of_mem_filter isJoined)
  exact ⟨ofJoined.table, ofJoined.column, ofJoined.key, ofJoined.restriction⟩

end Scope

theorem Scopes.Named.cons (ofScope : scope.Named valid) (named : scopes.Named valid) :
    Scopes.Named valid (scope :: scopes) :=
  List.forall_mem_cons.mpr ⟨ofScope, named⟩

theorem Scopes.Named.modify {level : Nat} {join : JoinedRow}
    (named : scopes.Named valid)
    (ofJoin : join.Named valid) : Scopes.Named valid (scopes.modify level (·.addJoin join)) :=
  Scopes.forall_mem_modify named fun _ old => old.addJoin ofJoin

/-! ## Facts of the schema -/

section

variable {schema : Schema} (names : ∀ name ∈ schema.storedNames, valid name)

include names

theorem named_of_requireTable {className table : String}
    (found : requireTable schema className = .ok table) : valid table := by
  unfold requireTable at found
  split at found
  · next isTable =>
    obtain rfl := Except.ok.inj found
    exact names _ (Schema.table_mem_storedNames isTable)
  · cases found

theorem named_of_requireKeyColumn {className column : String}
    (found : requireKeyColumn schema className = .ok column) : valid column := by
  unfold requireKeyColumn at found
  split at found
  · next isKey =>
    obtain rfl := Except.ok.inj found
    exact names _ (Schema.key_mem_storedNames isKey)
  · cases found

theorem named_of_requireField {className name : String} {field : FieldDef}
    (found : schema.requireField className name = .ok field) : valid field.column := by
  obtain ⟨_, -, found⟩ := bind_eq_ok.mp found
  split at found
  · next isField =>
    obtain rfl := Except.ok.inj found
    exact names _ (Schema.column_mem_storedNames isField)
  · cases found

theorem named_of_restrictionOf {row : RowAlias} {className : String}
    {restriction? : Option Restriction}
    (found : restrictionOf schema row className = .ok restriction?) :
    ∀ restriction ∈ restriction?, valid restriction.selector.column := by
  unfold restrictionOf at found
  split at found
  · split at found
    · next isSelector =>
      obtain rfl := Except.ok.inj found
      rintro restriction ⟨⟩
      exact names _ (Schema.selector_mem_storedNames isSelector)
    · cases found
  · obtain rfl := Except.ok.inj found
    rintro restriction ⟨⟩

theorem named_of_requireCollection {className name : String} {collection : CollectionDef}
    (found : schema.requireCollection className name = .ok collection) :
    ∀ stored ∈ collection.storage.storedNames, valid stored := by
  obtain ⟨_, -, found⟩ := bind_eq_ok.mp found
  split at found
  · next isCollection =>
    obtain rfl := Except.ok.inj found
    exact fun stored isStored =>
      names _ (Schema.storage_subset_storedNames isCollection isStored)
  · cases found

theorem named_of_resolveFrom {owner : String} {before rest : List String} {steps : List Step}
    (resolved : schema.resolveFrom owner before rest = .ok steps) :
    ∀ step ∈ steps, valid step.field.column := by
  induction rest generalizing owner before steps with
  | nil =>
    obtain rfl := Except.ok.inj resolved
    exact List.forall_mem_nil _
  | cons name rest inductionHypothesis =>
    obtain ⟨field, found, resolved⟩ := bind_eq_ok.mp resolved
    split at resolved
    · cases resolved
    · obtain ⟨target, -, resolved⟩ := bind_eq_ok.mp resolved
      obtain ⟨others, ofRest, finished⟩ := bind_eq_ok.mp resolved
      obtain rfl := Except.ok.inj finished
      exact List.forall_mem_cons.mpr
        ⟨named_of_requireField names found, inductionHypothesis ofRest⟩

/-! ## Look-ups -/

theorem named_of_joinStep {level entry : Nat} {owner name : RowAlias} {step : Step}
    {later : Scopes}
    (named : scopes.Named valid)
    (ofStep : valid step.field.column)
    (ran : (joinStep schema level entry owner step).run scopes = .ok (name, later)) :
    later.Named valid := by
  rw [joinStep, run_bind_eq_ok] at ran
  obtain ⟨_, _, found, ran⟩ := ran
  obtain ⟨rfl, rfl⟩ := run_get_eq_ok.mp found
  split at ran
  · exact absurd ran run_throw_ne_ok
  · split at ran
    · obtain ⟨-, rfl⟩ := run_pure_eq_ok.mp ran
      exact named
    · simp only [run_bind_eq_ok, run_lift_eq_ok] at ran
      obtain ⟨table, _, ⟨isTable, rfl⟩, key, _, ⟨isKey, rfl⟩, restriction, _, ⟨ofClass, rfl⟩,
        _, _, modified, finished⟩ := ran
      obtain ⟨-, rfl⟩ := run_pure_eq_ok.mp finished
      obtain ⟨-, rfl⟩ := Prod.mk.inj (Except.ok.inj modified)
      exact named.modify ⟨named_of_requireTable names isTable, ofStep,
        named_of_requireKeyColumn names isKey, named_of_restrictionOf names ofClass⟩

theorem named_of_joinAlong {level entry : Nat} {owner name : RowAlias} {steps : List Step}
    {later : Scopes}
    (named : scopes.Named valid)
    (ofSteps : ∀ step ∈ steps, valid step.field.column)
    (ran : (joinAlong schema level entry owner steps).run scopes = .ok (name, later)) :
    later.Named valid := by
  induction steps generalizing owner scopes with
  | nil =>
    obtain ⟨-, rfl⟩ := run_pure_eq_ok.mp ran
    exact named
  | cons step rest inductionHypothesis =>
    obtain ⟨ofStep, ofRest⟩ := List.forall_mem_cons.mp ofSteps
    obtain ⟨next, between, stepped, ranRest⟩ := run_bind_eq_ok.mp ran
    exact inductionHypothesis (named_of_joinStep names named ofStep stepped) ofRest ranRest

theorem named_of_resolveRow {chain : List String} {row : Row} {later : Scopes}
    (named : scopes.Named valid)
    (ran : (resolveRow schema chain).run scopes = .ok (row, later)) : later.Named valid := by
  rw [resolveRow, run_bind_eq_ok] at ran
  obtain ⟨_, _, found, ran⟩ := ran
  obtain ⟨rfl, rfl⟩ := run_get_eq_ok.mp found
  obtain ⟨start, _, located, ran⟩ := run_bind_eq_ok.mp ran
  obtain ⟨-, rfl⟩ := run_lift_eq_ok.mp located
  split at ran
  · exact absurd ran run_throw_ne_ok
  · split at ran
    · exact absurd ran run_throw_ne_ok
    · obtain ⟨steps, _, lifted, ran⟩ := run_bind_eq_ok.mp ran
      obtain ⟨resolved, rfl⟩ := run_lift_eq_ok.mp lifted
      obtain ⟨name, _, joined, finished⟩ := run_bind_eq_ok.mp ran
      obtain ⟨-, rfl⟩ := run_pure_eq_ok.mp finished
      obtain ⟨_, -, followed⟩ := bind_eq_ok.mp resolved
      exact named_of_joinAlong names named (named_of_resolveFrom names followed) joined

theorem named_of_resolveColumn {path : Path} {column : ColumnRef} {later : Scopes}
    (named : scopes.Named valid)
    (ran : (resolveColumn schema path).run scopes = .ok (column, later)) :
    later.Named valid ∧ valid column.column := by
  obtain ⟨row, _, resolved, ran⟩ := run_bind_eq_ok.mp ran
  obtain ⟨field, _, lifted, finished⟩ := run_bind_eq_ok.mp ran
  obtain ⟨found, rfl⟩ := run_lift_eq_ok.mp lifted
  obtain ⟨rfl, rfl⟩ := run_pure_eq_ok.mp finished
  exact ⟨named_of_resolveRow names named resolved, named_of_requireField names found⟩

theorem named_of_resolveCollection {owner : List String} {collection : String}
    {found : CollectionDef} {key : ColumnRef} {later : Scopes}
    (named : scopes.Named valid)
    (ran : (resolveCollection schema owner collection).run scopes = .ok ((found, key), later)) :
    later.Named valid ∧ valid key.column ∧
      ∀ stored ∈ found.storage.storedNames, valid stored := by
  obtain ⟨row, _, resolved, ran⟩ := run_bind_eq_ok.mp ran
  obtain ⟨_, _, lifted, ran⟩ := run_bind_eq_ok.mp ran
  obtain ⟨isFound, rfl⟩ := run_lift_eq_ok.mp lifted
  obtain ⟨_, _, lifted, finished⟩ := run_bind_eq_ok.mp ran
  obtain ⟨isKey, rfl⟩ := run_lift_eq_ok.mp lifted
  obtain ⟨same, rfl⟩ := run_pure_eq_ok.mp finished
  obtain ⟨rfl, rfl⟩ := Prod.mk.inj same
  exact ⟨named_of_resolveRow names named resolved, named_of_requireKeyColumn names isKey,
    named_of_requireCollection names isFound⟩

/-! ## Levels that are opened -/

theorem named_of_addSources {start : Scope} {items : List FromItem} {kept : List Condition}
    (named : start.Named valid)
    (added : addSources schema start items = .ok (scope, kept)) :
    scope.Named valid ∧ ∀ condition ∈ kept, condition.Named valid := by
  induction items generalizing start kept with
  | nil =>
    obtain ⟨rfl, rfl⟩ := Prod.mk.inj (Except.ok.inj added)
    exact ⟨named, List.forall_mem_nil _⟩
  | cons item rest inductionHypothesis =>
    obtain ⟨_, -, added⟩ := bind_eq_ok.mp added
    obtain ⟨table, isTable, added⟩ := bind_eq_ok.mp added
    obtain ⟨restriction, ofClass, added⟩ := bind_eq_ok.mp added
    obtain ⟨⟨_, others⟩, addedRest, finished⟩ := bind_eq_ok.mp added
    obtain ⟨rfl, rfl⟩ := Prod.mk.inj (Except.ok.inj finished)
    obtain ⟨ofScope, ofOthers⟩ :=
      inductionHypothesis (named.addEntry (named_of_requireTable names isTable)) addedRest
    refine ⟨ofScope, List.forall_mem_append.mpr ⟨?_, ofOthers⟩⟩
    intro condition member
    obtain ⟨restriction, isRestriction, rfl⟩ := List.mem_map.mp member
    exact named_of_restrictionOf names ofClass restriction (Option.mem_toList.mp isRestriction)

theorem named_of_membership {depth : Nat} {collection : CollectionDef} {key : ColumnRef}
    {elementsMatter : Bool} {setup : Membership}
    (ofCollection : ∀ stored ∈ collection.storage.storedNames, valid stored)
    (ofKey : valid key.column)
    (opened : membership schema depth collection key elementsMatter = .ok setup) :
    setup.scope.Named valid ∧ ∀ condition ∈ setup.conditions, condition.Named valid := by
  rw [membership] at opened
  split at opened
  · obtain ⟨table, isTable, opened⟩ := bind_eq_ok.mp opened
    obtain ⟨foreign, isField, finished⟩ := bind_eq_ok.mp opened
    obtain rfl := Except.ok.inj finished
    refine ⟨(Scope.Named.empty depth).addEntry (named_of_requireTable names isTable), ?_⟩
    exact List.forall_mem_singleton.mpr ⟨named_of_requireField names isField, ofKey⟩
  · next element _ _ _ storage =>
    rw [storage] at ofCollection
    obtain ⟨ofTable, ofOwner, ofElement, -⟩ :
        valid _ ∧ valid _ ∧ valid _ ∧ True := by
      simpa [CollectionStorage.storedNames] using ofCollection
    have linked : ((Scope.empty depth).addEntry none none _).Named valid :=
      (Scope.Named.empty depth).addEntry ofTable
    split at opened
    · obtain ⟨table, isTable, opened⟩ := bind_eq_ok.mp opened
      obtain ⟨column, isColumn, finished⟩ := bind_eq_ok.mp opened
      obtain rfl := Except.ok.inj finished
      have both : (Scope.addEntry (some element) none table _).Named valid :=
        linked.addEntry (named_of_requireTable names isTable)
      refine ⟨⟨both.tables, both.joins⟩, ?_⟩
      exact List.forall_mem_cons.mpr ⟨⟨ofOwner, ofKey⟩,
        List.forall_mem_singleton.mpr ⟨ofElement, named_of_requireKeyColumn names isColumn⟩⟩
    · obtain rfl := Except.ok.inj opened
      exact ⟨linked, List.forall_mem_singleton.mpr ⟨ofOwner, ofKey⟩⟩

theorem named_of_memberConditions {member : Option Row} {kept : List Condition}
    (conditioned : memberConditions schema member none = .ok kept) :
    ∀ condition ∈ kept, condition.Named valid := by
  cases member with
  | none =>
    obtain rfl := Except.ok.inj conditioned
    exact List.forall_mem_nil _
  | some row =>
    obtain ⟨restriction, restricted, finished⟩ := bind_eq_ok.mp conditioned
    obtain rfl := Except.ok.inj finished
    intro condition member
    obtain ⟨restriction, isRestriction, rfl⟩ := List.mem_map.mp member
    exact named_of_restrictionOf names restricted restriction (Option.mem_toList.mp isRestriction)

end

end ObjectQuery.Sql

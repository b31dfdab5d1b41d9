import ObjectQuery.Schema.Resolution
import ObjectQuery.Sql.Select

/-!
Contract: what names mean within a query and the queries nested in it, one scope for each level.

A scope holds the tables of one select. The tables of its from list take the first names, and each
reference that is followed from one of its tables is joined once, when it is first followed.

Owns:
- `Entry`, `JoinedRow` and `Scope`;
- `Scoped`, computations that change the scopes;
- `locateRow` and `resolveRow`, which find the row that a chain of names leads to.

Does not own: expressions.
-/

namespace ObjectQuery.Sql

/-- A table in the from list of a scope. A table of pairs has no class. -/
structure Entry where
  className : Option String
  label : Option String
  name : RowAlias
  table : String
deriving DecidableEq, Repr

/-- A table joined to the row of an entry for a reference field of its owner. -/
structure JoinedRow where
  entry : Nat
  name : RowAlias
  table : String
  owner : RowAlias
  field : FieldDef
  key : String
  restriction : Option Restriction

/-- The tables of one select. `root` is the entry that bare names belong to, and `nextNumber` the
number of the next table. -/
structure Scope where
  depth : Nat
  nextNumber : Nat
  entries : List Entry
  root : Nat
  joins : List JoinedRow

namespace Scope

/-- A scope without tables. -/
def empty (depth : Nat) : Scope := ⟨depth, 0, [], 0, []⟩

/-- The name of the next table. -/
def nextName (scope : Scope) : RowAlias := ⟨scope.depth, scope.nextNumber⟩

/-- Adds a table to the from list. -/
def addEntry (className label : Option String) (table : String) (scope : Scope) : Scope :=
  { scope with
    nextNumber := scope.nextNumber + 1
    entries := scope.entries ++ [⟨className, label, scope.nextName, table⟩] }

/-- Adds a joined table, which takes the next name. -/
def addJoin (join : JoinedRow) (scope : Scope) : Scope :=
  { scope with
    nextNumber := scope.nextNumber + 1
    joins := scope.joins ++ [join] }

/-- The place of the first entry that meets a condition. -/
def entryWhere? (meets : Entry → Bool) (scope : Scope) : Option Nat :=
  scope.entries.findIdx? meets

/-- The entry of a class with this label. -/
def labelled? (name : String) (scope : Scope) : Option Nat :=
  scope.entryWhere? fun entry => entry.className.isSome && entry.label == some name

/-- The first entry with this label, or else the first one without a label of this class. -/
def named? (name : String) (scope : Scope) : Option Nat :=
  (scope.entryWhere? (·.label == some name)).or
    (scope.entryWhere? fun entry => entry.label.isNone && entry.className == some name)

/-- The class of the root entry. -/
def rootClass? (scope : Scope) : Option String :=
  scope.entries[scope.root]? >>= (·.className)

/-- The table that was joined for a field of an owner. -/
def joined? (owner : RowAlias) (field : String) (scope : Scope) : Option JoinedRow :=
  scope.joins.find? fun join => join.owner = owner ∧ join.field.name = field

/-- The from list of the select, each entry with the tables joined to it. -/
def sources (scope : Scope) : List Source :=
  scope.entries.mapIdx fun place entry =>
    { table := entry.table
      name := entry.name
      joins := (scope.joins.filter (·.entry = place)).map fun join =>
        { table := join.table
          name := join.name
          owner := ⟨join.owner, join.field.column⟩
          key := join.key
          restriction := join.restriction } }

end Scope

/-- The scopes of all levels, the innermost first. -/
abbrev Scopes := List Scope

/-- A computation that changes the scopes and may fail. -/
abbrev Scoped := StateT Scopes (Except Error)

/-! ## Facts of the schema -/

/-- The table of a class, or the error that it has none. -/
def requireTable (schema : Schema) (className : String) : Except Error String :=
  match schema.table? className with
  | some table => .ok table
  | none => .error (.noTable className)

/-- The column of the primary key of a class, or the error that it has none. -/
def requireKeyColumn (schema : Schema) (className : String) : Except Error String :=
  match schema.primaryKey? className with
  | some field => .ok field.column
  | none => .error (.noPrimaryKey className)

/-- What keeps the rows of a class and its subclasses apart from others in its table, for a class
with a parent or a subclass. -/
def restrictionOf (schema : Schema) (name : RowAlias) (className : String) :
    Except Error (Option Restriction) :=
  if schema.hasSubclassing className then
    match schema.selectorField? className with
    | some field => .ok (some ⟨⟨name, field.column⟩, schema.selectorValues className⟩)
    | none => .error (.noSelectorField className)
  else
    .ok none

/-! ## Rows -/

/-- Where a chain of names starts: the level, counted from the innermost, the entry of it, and the
names that are left. -/
structure Start where
  level : Nat
  entry : Nat
  names : List String
deriving DecidableEq, Repr

/-- The innermost level with an entry of a class for this name. The first entry of a level that goes
by the name decides, even when it is a table of pairs. -/
def enclosing? (name : String) : Scopes → Option (Nat × Nat)
  | [] => none
  | scope :: outer =>
    let here := (scope.named? name).filter fun place =>
      ((scope.entries[place]?).bind (·.className)).isSome
    match here with
    | some place => some (0, place)
    | none => (enclosing? name outer).map fun (level, place) => (level + 1, place)

/-- Finds where a chain of names starts. The first name is a label of the innermost level, or else a
field of its root, or else an entry of any level, inner ones first; with none of these the chain
starts at the root. -/
def locateRow (schema : Schema) (scopes : Scopes) (names : List String) : Except Error Start :=
  match scopes with
  | [] => .error .pathOutsideQuery
  | scope :: _ =>
    match names with
    | [] => .ok ⟨0, scope.root, []⟩
    | first :: rest =>
      match scope.labelled? first with
      | some place => .ok ⟨0, place, rest⟩
      | none =>
        let isField : Bool :=
          match scope.rootClass? with
          | some className => (schema.field? className first).isSome
          | none => false
        if isField then .ok ⟨0, scope.root, first :: rest⟩
        else
          match enclosing? first scopes with
          | some (level, place) => .ok ⟨level, place, rest⟩
          | none => .ok ⟨0, scope.root, first :: rest⟩

/-- The row that a reference of an owner leads to. It is joined at a level when that has not been
done yet. -/
def joinStep (schema : Schema) (level entry : Nat) (owner : RowAlias) (step : Step) :
    Scoped RowAlias := do
  match (← get)[level]? with
  | none => throw .pathOutsideQuery
  | some scope =>
    match scope.joined? owner step.field.name with
    | some join => pure join.name
    | none =>
      let table ← requireTable schema step.target
      let key ← requireKeyColumn schema step.target
      let name := scope.nextName
      let restriction ← restrictionOf schema name step.target
      let join : JoinedRow := ⟨entry, name, table, owner, step.field, key, restriction⟩
      modify fun scopes => scopes.modify level (·.addJoin join)
      pure name

/-- Joins along steps, from a row to the one they end in. -/
def joinAlong (schema : Schema) (level entry : Nat) : RowAlias → List Step → Scoped RowAlias
  | owner, [] => pure owner
  | owner, step :: rest => do
    let next ← joinStep schema level entry owner step
    joinAlong schema level entry next rest

/-- A row with its class. -/
structure Row where
  name : RowAlias
  className : String
deriving DecidableEq, Repr

/-- The row that a chain of names leads to, with the tables on the way joined. -/
def resolveRow (schema : Schema) (names : List String) : Scoped Row := do
  let scopes ← get
  let start ← locateRow schema scopes names
  match (scopes[start.level]?).bind (·.entries[start.entry]?) with
  | none => throw .pathOutsideQuery
  | some entry =>
    match entry.className with
    | none => throw .associationProperty
    | some root =>
      let steps ← schema.resolveReferences root start.names
      let name ← joinAlong schema start.level start.entry entry.name steps
      pure ⟨name, Schema.endOf root steps⟩

/-- A column of the row that the names in front lead to. -/
def resolveColumn (schema : Schema) (path : Path) : Scoped ColumnRef := do
  let row ← resolveRow schema path.owner
  let field ← schema.requireField row.className path.name
  pure ⟨row.name, field.column⟩

/-- Runs a computation with one more scope, and hands the scope back. -/
def within {α : Type} (scope : Scope) (body : Scoped α) : Scoped (Scope × α) := do
  modify (scope :: ·)
  let result ← body
  match ← get with
  | inner :: outer =>
    set outer
    pure (inner, result)
  | [] => throw .pathOutsideQuery

end ObjectQuery.Sql

import ObjectQuery.Error

/-!
Contract: a store of objects that refer to one another.

Owns:
- `StoredObject` and `Store`, with the operations that change them;
- `Store.property` and its relatives, which look things up;
- `Store.follow`, which walks a chain of properties.

Does not own: expressions.
-/

namespace ObjectQuery

/-- A table of named things without a fixed set of names. -/
abbrev Named (α : Type) := List (String × α)

/-- Gives a name a new content, in place of the old one if there is one. -/
def Named.put {α : Type} (name : String) (content : α) : Named α → Named α
  | [] => [(name, content)]
  | entry :: rest =>
    if entry.1 = name then (name, content) :: rest else entry :: Named.put name content rest

/-- The content of a name. -/
def Named.get? {α : Type} (name : String) (table : Named α) : Option α :=
  table.lookup name

/-- An object with plain fields, references to other objects and collections of them. Objects are
named by handles, which need not belong to an object. -/
structure StoredObject where
  className : String
  key : Value
  fields : Named Value
  references : Named (Option Nat)
  collections : Named (List Nat)

/-- Objects by their handles, which count from zero, with a root object and the values of the
parameters. Without a chosen root the first object is the root. -/
structure Store where
  objects : List StoredObject
  chosenRoot : Option Nat
  parameters : List Value

/-- What a property holds: a plain value or another object. -/
inductive Datum where
  | value (value : Value)
  | object (handle : Nat)

namespace Store

/-- A store without objects. -/
def empty : Store := ⟨[], none, []⟩

/-- Adds an object and tells its handle. -/
def insert (object : StoredObject) (store : Store) : Nat × Store :=
  (store.objects.length, { store with objects := store.objects ++ [object] })

/-- Changes an object and tells whether it exists. -/
def update (handle : Nat) (change : StoredObject → StoredObject) (store : Store) : Bool × Store :=
  (decide (handle < store.objects.length),
    { store with objects := store.objects.modify handle change })

/-- The object that bare names belong to. -/
def root (store : Store) : Nat :=
  store.chosenRoot.getD 0

/-- The object with a handle. -/
def object (store : Store) (handle : Nat) : Except Error StoredObject :=
  match store.objects[handle]? with
  | some found => .ok found
  | none => .error (.unknownObject handle)

/-- The value of a parameter. -/
def parameter (store : Store) (index : Nat) : Except Error Value :=
  match store.parameters[index]? with
  | some value => .ok value
  | none => .error (.parameterOutOfRange index)

/-- A property of an object: a field, or else a reference. A reference to nothing is null. -/
def property (store : Store) (handle : Nat) (name : String) : Except Error Datum := do
  let object ← store.object handle
  match object.fields.get? name with
  | some value => pure (.value value)
  | none =>
    match object.references.get? name with
    | some (some target) => pure (.object target)
    | some none => pure (.value .null)
    | none => .error (.unknownProperty object.className name)

/-- The handles in a collection of an object. -/
def collection (store : Store) (handle : Nat) (name : String) : Except Error (List Nat) := do
  let object ← store.object handle
  match object.collections.get? name with
  | some elements => pure elements
  | none => .error (.unknownCollection object.className name)

/-- The class of an object. -/
def className (store : Store) (handle : Nat) : Except Error String := do
  pure (← store.object handle).className

/-- The key of an object, which stands for it as a value. -/
def key (store : Store) (handle : Nat) : Except Error Value := do
  pure (← store.object handle).key

/-- One step along a chain of properties. Behind null everything is null. -/
def step (store : Store) (name : String) : Datum → Except Error Datum
  | .object handle => store.property handle name
  | .value .null => .ok (.value .null)
  | .value v => .error (.propertyOfValue name v.type)

/-- What a chain of properties leads to. -/
def follow (store : Store) : Datum → List String → Except Error Datum
  | start, [] => .ok start
  | start, name :: names => do store.follow (← store.step name start) names

/-- The object that a chain of properties leads to, none when it leads to null. -/
def followToObject
    (store : Store)
    (handle : Nat)
    (names : List String)
    (pathText : String) : Except Error (Option Nat) := do
  match ← store.follow (.object handle) names with
  | .object target => pure (some target)
  | .value .null => pure none
  | .value v => .error (.notAnObject pathText v.type)

/-- A datum as a value: an object stands for its key. -/
def valueOf (store : Store) : Datum → Except Error Value
  | .value v => .ok v
  | .object handle => store.key handle

end Store

end ObjectQuery

import ObjectQuery.Schema

/-!
Contract: what a class has together with its ancestors and subclasses.

Owns:
- `ancestry`, which ends after 64 classes, so that cyclic parents do no harm;
- look-ups that take the nearest class of the ancestry;
- `subclasses`, which lists each name once;
- `selectorValues`, the values that mark the rows of a class and its subclasses.
-/

namespace ObjectQuery.Schema

/-- Longer chains of parents are taken to be cyclic. -/
def maxDepth : Nat := 64

/-- The class with a key, or the error that there is none. -/
def require (schema : Schema) (key : String) : Except Error ClassDef :=
  match schema.find? key with
  | some c => .ok c
  | none => .error (.unknownClass key)

/-- At most `limit` classes: the one with the key, then its parent, and so on. -/
def ancestryUpTo (schema : Schema) : Nat → Option String → List ClassDef
  | 0, _ => []
  | _ + 1, none => []
  | limit + 1, some key =>
    match schema.find? key with
    | none => []
    | some c => c :: schema.ancestryUpTo limit c.parent

/-- A class and its ancestors, the nearest first. -/
def ancestry (schema : Schema) (key : String) : List ClassDef :=
  schema.ancestryUpTo maxDepth (some key)

/-! ## Fields and collections -/

/-- A field of a class, inherited ones included. -/
def field? (schema : Schema) (key name : String) : Option FieldDef :=
  (schema.ancestry key).findSome? (·.ownField? name)

/-- A field of a class, or the error that the class or the field is missing. -/
def requireField (schema : Schema) (key name : String) : Except Error FieldDef := do
  let _ ← schema.require key
  match schema.field? key name with
  | some field => pure field
  | none => .error (.unknownField key name)

/-- The class that a field refers to. -/
def referenced? (schema : Schema) (field : FieldDef) : Option ClassDef :=
  field.references >>= schema.find?

/-- A collection of a class, inherited ones included. -/
def collection? (schema : Schema) (key name : String) : Option CollectionDef :=
  (schema.ancestry key).findSome? (·.ownCollection? name)

/-- A collection of a class, or the error that the class or the collection is missing. -/
def requireCollection (schema : Schema) (key name : String) : Except Error CollectionDef := do
  let _ ← schema.require key
  match schema.collection? key name with
  | some collection => pure collection
  | none => .error (.unknownCollection key name)

/-! ## Storage -/

/-- The table of a class: the nearest one in its ancestry with a name. -/
def table? (schema : Schema) (key : String) : Option String :=
  (schema.ancestry key).findSome? fun c => c.table.filter (· ≠ "")

/-- The field that is the primary key of a class. -/
def primaryKey? (schema : Schema) (key : String) : Option FieldDef := do
  let name ← (schema.ancestry key).findSome? (·.primaryKey)
  schema.field? key name

/-! ## Hierarchies -/

/-- Ordered by name; classes of one name by key. -/
def byName (x y : String × ClassDef) : Bool :=
  match Ord.compare x.2.name y.2.name with
  | .lt => true
  | .eq => Ord.compare x.1 y.1 != .gt
  | .gt => false

/-- The classes whose parent has a key, ordered by name. -/
def directSubclasses (schema : Schema) (key : String) : List ClassDef :=
  ((schema.classes.filter (·.2.parent = some key)).mergeSort byName).map (·.2)

/-- Adds the classes of new names, and tells which those are. -/
def addNew (start : String) (found : List ClassDef) :
    List ClassDef → List ClassDef × List String
  | [] => (found, [])
  | c :: rest =>
    if c.name = start ∨ found.any (·.name = c.name) then
      addNew start found rest
    else
      let (all, fresh) := addNew start (found ++ [c]) rest
      (all, c.name :: fresh)

/-- Goes through the names whose subclasses are still to be listed, the last added first. Each name
is added once, so the rounds are at most one more than the classes. -/
def subclassesFrom (schema : Schema) (start : String) :
    Nat → List ClassDef → List String → List ClassDef
  | 0, found, _ => found
  | _ + 1, found, [] => found
  | rounds + 1, found, name :: pending =>
    let (found, fresh) := addNew start found (schema.directSubclasses name)
    subclassesFrom schema start rounds found (fresh.reverse ++ pending)

/-- All subclasses of a class, those of subclasses included. -/
def subclasses (schema : Schema) (key : String) : List ClassDef :=
  schema.subclassesFrom key (schema.classes.length + 1) [] [key]

/-- The value of the selector field in the rows of a class. -/
def selectorValue? (schema : Schema) (key : String) : Option Value :=
  schema.find? key >>= (·.selectorValue)

/-- The selector field of the hierarchy that a class belongs to. -/
def selectorField? (schema : Schema) (key : String) : Option FieldDef := do
  let name ← (schema.ancestry key).findSome? (·.selectorField)
  schema.field? key name

/-- The class has a parent or a subclass. -/
def hasSubclassing (schema : Schema) (key : String) : Bool :=
  match schema.find? key with
  | some c => c.parent.isSome || !(schema.directSubclasses key).isEmpty
  | none => false

/-- The values without those that are the same as an earlier one. -/
def distinctValues : List Value → List Value :=
  List.foldl (fun kept v => if kept.any (·.same v) then kept else kept ++ [v]) []

/-- The values that mark the rows of a class and its subclasses, abstract ones aside. -/
def selectorValues (schema : Schema) (key : String) : List Value :=
  let classes := (schema.find? key).toList ++ schema.subclasses key
  distinctValues ((classes.filter (!·.isAbstract)).filterMap (·.selectorValue))

end ObjectQuery.Schema

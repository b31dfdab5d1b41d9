import ObjectQuery.Store

/-!
Contract: classes of objects and how they are stored in tables.

Owns:
- `FieldDef`, `CollectionDef`, `ClassDef` and the steps by which a class is declared;
- `Schema`, the classes by the keys they are looked up with.

Does not own: inheritance, which is walked by the catalog.
-/

namespace ObjectQuery

/-- A field with its column. A reference holds the primary key of an object of another class. -/
structure FieldDef where
  name : String
  column : String
  dataType : DataType
  references : Option String
  nullable : Bool
deriving DecidableEq, Repr

/-- How the elements of a collection are found: by a field of theirs that refers to the owner, or
through a table of pairs. -/
inductive CollectionStorage where
  | oneToMany (element foreignField : String)
  | manyToMany (element associationTable ownerColumn elementColumn : String)
deriving DecidableEq, Repr

/-- A collection of objects of another class. -/
structure CollectionDef where
  name : String
  storage : CollectionStorage
deriving DecidableEq, Repr

/-- The class of the elements. -/
def CollectionDef.element (collection : CollectionDef) : String :=
  match collection.storage with
  | .oneToMany element _ => element
  | .manyToMany element _ _ _ => element

/-- A class with what it declares itself. A class without a table shares its parent's, and rows of
one table are told apart by the value of the selector field. -/
structure ClassDef where
  name : String
  table : Option String
  primaryKey : Option String
  fields : List FieldDef
  collections : List CollectionDef
  parent : Option String
  selectorField : Option String
  selectorValue : Option Value
  isAbstract : Bool

namespace FieldDef

/-- A plain field. -/
def plain (name column : String) (dataType : DataType) : FieldDef :=
  ⟨name, column, dataType, none, false⟩

/-- A plain field that may be null. -/
def nullablePlain (name column : String) (dataType : DataType) : FieldDef :=
  { plain name column dataType with nullable := true }

/-- A reference to an object of a class, or to none. -/
def reference (name column target : String) : FieldDef :=
  ⟨name, column, .integer .w32, some target, true⟩

end FieldDef

namespace ClassDef

/-- A class with a table of its own. -/
def stored (name table : String) : ClassDef :=
  ⟨name, some table, none, [], [], none, none, none, false⟩

/-- A class that shares its parent's table. -/
def derived (name parent : String) : ClassDef :=
  ⟨name, none, none, [], [], some parent, none, none, false⟩

/-- Declares one more field. -/
def withField (field : FieldDef) (c : ClassDef) : ClassDef :=
  { c with fields := c.fields ++ [field] }

/-- Declares the primary key with an integer field for it. -/
def withPrimaryKey (name column : String) (c : ClassDef) : ClassDef :=
  { c.withField (.plain name column (.integer .w32)) with primaryKey := some name }

/-- Declares one more collection. -/
def withCollection (collection : CollectionDef) (c : ClassDef) : ClassDef :=
  { c with collections := c.collections ++ [collection] }

/-- Declares the field that tells the classes of a hierarchy apart. -/
def withSelectorField (field : String) (c : ClassDef) : ClassDef :=
  { c with selectorField := some field }

/-- Declares the value of the selector field in the rows of this class. -/
def withSelectorValue (value : Value) (c : ClassDef) : ClassDef :=
  { c with selectorValue := some value }

/-- Declares that no object is of this class alone. -/
def asAbstract (c : ClassDef) : ClassDef :=
  { c with isAbstract := true }

/-- A field that the class declares itself. -/
def ownField? (c : ClassDef) (name : String) : Option FieldDef :=
  c.fields.find? (·.name = name)

/-- A collection that the class declares itself. -/
def ownCollection? (c : ClassDef) (name : String) : Option CollectionDef :=
  c.collections.find? (·.name = name)

end ClassDef

/-- Classes by their keys. A class may be kept under a key that is not its name; all look-ups go by
keys. -/
structure Schema where
  classes : Named ClassDef

namespace Schema

/-- A schema without classes. -/
def empty : Schema := ⟨[]⟩

/-- The class with a key. -/
def find? (schema : Schema) (key : String) : Option ClassDef :=
  schema.classes.get? key

/-- Adds a class under its name and tells whether the name was free; a class that is there is
kept. -/
def add (c : ClassDef) (schema : Schema) : Bool × Schema :=
  if (schema.find? c.name).isSome then (false, schema)
  else (true, ⟨schema.classes.put c.name c⟩)

/-- The schema of these classes, of which the first of each name counts. -/
def ofClasses (classes : List ClassDef) : Schema :=
  classes.foldl (fun schema c => (schema.add c).2) empty

/-- Removes the class with a key and tells which one it was. -/
def remove (key : String) (schema : Schema) : Option ClassDef × Schema :=
  (schema.find? key, ⟨schema.classes.filter (·.1 ≠ key)⟩)

end Schema

end ObjectQuery

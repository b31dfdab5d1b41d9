import ObjectQuery.Document.Value
import ObjectQuery.Schema

/-!
Contract: schemas from JSON documents.

Owns: `Schema.ofJson?` and `Schema.parse`. Of classes under one key the last counts, though all of
them have to be readable.
-/

namespace ObjectQuery

/-- A field from a document. -/
def FieldDef.ofJson? (j : Json) : Option FieldDef := do
  match ← j.record? ["name", "column", "data_type", "references", "nullable"] with
  | [name, column, dataType, references, nullable] =>
    let name ← name >>= Json.asString?
    let column ← column >>= Json.asString?
    let dataType ← dataType >>= Json.plainChoice? >>= DataType.ofDocumentName?
    let references ← Json.asOption? Json.asString? references
    let nullable ← Json.withDefault? false Json.asBoolean? nullable
    pure ⟨name, column, dataType, references, nullable⟩
  | _ => none

/-- The storage of a collection from a document. -/
def CollectionStorage.ofJson? (j : Json) : Option CollectionStorage := do
  match ← j.choice? with
  | ("OneToMany", some content) =>
    match ← content.record? ["class", "foreign_field"] with
    | [element, foreignField] =>
      pure (.oneToMany (← element >>= Json.asString?) (← foreignField >>= Json.asString?))
    | _ => none
  | ("ManyToMany", some content) =>
    let names := ["element_class", "association_table", "owner_column", "element_column"]
    match ← content.record? names with
    | [element, table, ownerColumn, elementColumn] =>
      pure (.manyToMany (← element >>= Json.asString?) (← table >>= Json.asString?)
        (← ownerColumn >>= Json.asString?) (← elementColumn >>= Json.asString?))
    | _ => none
  | _ => none

/-- A collection from a document. -/
def CollectionDef.ofJson? (j : Json) : Option CollectionDef := do
  match ← j.record? ["name", "kind"] with
  | [name, storage] =>
    pure ⟨← name >>= Json.asString?, ← storage >>= CollectionStorage.ofJson?⟩
  | _ => none

/-- The names of the fields of a class in documents. -/
def ClassDef.documentFields : List String :=
  ["name", "table", "primary_key", "fields", "collections", "inherits_from",
    "subclass_selector_field", "subclass_selector_value", "is_abstract"]

/-- A class from a document, with a reader for the value of its selector field. -/
def ClassDef.ofJsonWith? (readValue : Json → Option Value) (j : Json) : Option ClassDef := do
  match ← j.record? documentFields with
  | [name, table, primaryKey, fields, collections, parent, selectorField, selectorValue,
      isAbstract] =>
    let name ← name >>= Json.asString?
    let table ← Json.asOption? Json.asString? table
    let primaryKey ← Json.asOption? Json.asString? primaryKey
    let fields ← Json.withDefault? [] (Json.asList? FieldDef.ofJson?) fields
    let collections ← Json.withDefault? [] (Json.asList? CollectionDef.ofJson?) collections
    let parent ← Json.asOption? Json.asString? parent
    let selectorField ← Json.asOption? Json.asString? selectorField
    let selectorValue ← Json.asOption? readValue selectorValue
    let isAbstract ← Json.withDefault? false Json.asBoolean? isAbstract
    pure ⟨name, table, primaryKey, fields, collections, parent, selectorField, selectorValue,
      isAbstract⟩
  | _ => none

/-- A class from a document. -/
def ClassDef.ofJson? (j : Json) : Option ClassDef :=
  ClassDef.ofJsonWith? Value.ofJson? j

namespace Schema

/-- A schema from a document. -/
def ofJson? (j : Json) : Option Schema := do
  match ← j.record? ["classes"] with
  | [some content] =>
    let classes ← (← content.namedMembers?).mapM fun member => do
      pure (member.1, ← ClassDef.ofJson? member.2)
    pure ⟨classes.foldl (fun table entry => table.put entry.1 entry.2) []⟩
  | _ => none

/-- A schema from the text of a document. -/
def parse (source : String) : Except Error Schema :=
  match Json.parse? source >>= ofJson? with
  | some schema => .ok schema
  | none => .error .invalidSchemaDocument

end Schema

end ObjectQuery

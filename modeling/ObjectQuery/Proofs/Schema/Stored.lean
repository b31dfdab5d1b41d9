import Mathlib.Data.List.Basic
import ObjectQuery.Schema.Catalog

/-!
Contract: the names that a schema declares: those of its tables and columns, and those of its classes
and fields.

Owns: `Schema.storedNames` and `Schema.spokenNames`, and that what a look-up finds is named there.

Does not own: what the names are used for.
-/

namespace ObjectQuery

/-- The names of what a collection adds to the tables of classes. -/
def CollectionStorage.storedNames : CollectionStorage → List String
  | .oneToMany _ _ => []
  | .manyToMany _ associationTable ownerColumn elementColumn =>
    [associationTable, ownerColumn, elementColumn]

/-- The tables and columns that a class declares. -/
def ClassDef.storedNames (c : ClassDef) : List String :=
  c.table.toList ++ c.fields.map (·.column) ++ c.collections.flatMap (·.storage.storedNames)

/-- The tables and columns that the classes of a schema declare. -/
def Schema.storedNames (schema : Schema) : List String :=
  schema.classes.flatMap (·.2.storedNames)

/-- The keys that the classes of a schema go by, and the names of their fields. -/
def Schema.spokenNames (schema : Schema) : List String :=
  schema.classes.flatMap fun (key, c) => key :: c.fields.map (·.name)

namespace Schema

variable {schema : Schema} {key name : String}

theorem mem_classes_of_find? {c : ClassDef} (found : schema.find? key = some c) :
    (key, c) ∈ schema.classes := by
  obtain ⟨before, after, split, -⟩ := List.lookup_eq_some_iff.mp found
  rw [split]
  exact List.mem_append_right _ List.mem_cons_self

theorem exists_mem_classes_of_ancestryUpTo {c : ClassDef} {limit : Nat} {start : Option String}
    (member : c ∈ schema.ancestryUpTo limit start) : ∃ key, (key, c) ∈ schema.classes := by
  induction limit generalizing start with
  | zero => cases member
  | succ limit inductionHypothesis =>
    cases start with
    | none => cases member
    | some key =>
      rw [ancestryUpTo] at member
      split at member
      · cases member
      · next found =>
        rcases List.mem_cons.mp member with rfl | inherited
        · exact ⟨key, mem_classes_of_find? found⟩
        · exact inductionHypothesis inherited

/-- What a class of the ancestry declares is a name of the schema. -/
theorem mem_storedNames_of_findSome? {α : Type} {read : ClassDef → Option α} {result : α}
    (found : (schema.ancestry key).findSome? read = some result)
    (declared : ∀ c, read c = some result → name ∈ c.storedNames) : name ∈ schema.storedNames := by
  obtain ⟨c, member, isResult⟩ := List.exists_of_findSome?_eq_some found
  obtain ⟨holder, isClass⟩ := exists_mem_classes_of_ancestryUpTo member
  exact List.mem_flatMap.mpr ⟨_, isClass, declared c isResult⟩

theorem column_mem_storedNames {field : FieldDef} (found : schema.field? key name = some field) :
    field.column ∈ schema.storedNames := by
  refine mem_storedNames_of_findSome? found fun c isField => ?_
  rw [ClassDef.storedNames, List.append_assoc]
  refine List.mem_append_right _ (List.mem_append_left _ ?_)
  exact List.mem_map_of_mem (List.mem_of_find?_eq_some isField)

theorem table_mem_storedNames {table : String} (found : schema.table? key = some table) :
    table ∈ schema.storedNames := by
  refine mem_storedNames_of_findSome? found fun c isTable => ?_
  obtain ⟨ofClass, -⟩ := Option.filter_eq_some_iff.mp isTable
  rw [ClassDef.storedNames, List.append_assoc]
  exact List.mem_append_left _ (Option.mem_toList.mpr ofClass)

theorem storage_subset_storedNames {collection : CollectionDef}
    (found : schema.collection? key name = some collection) :
    collection.storage.storedNames ⊆ schema.storedNames := by
  intro stored isStored
  refine mem_storedNames_of_findSome? found fun c isCollection => ?_
  refine List.mem_append_right _ (List.mem_flatMap.mpr ⟨collection, ?_, isStored⟩)
  exact List.mem_of_find?_eq_some isCollection

theorem key_mem_storedNames {field : FieldDef} (found : schema.primaryKey? key = some field) :
    field.column ∈ schema.storedNames := by
  obtain ⟨_, -, isField⟩ := Option.bind_eq_some_iff.mp found
  exact column_mem_storedNames isField

theorem selector_mem_storedNames {field : FieldDef}
    (found : schema.selectorField? key = some field) : field.column ∈ schema.storedNames := by
  obtain ⟨_, -, isField⟩ := Option.bind_eq_some_iff.mp found
  exact column_mem_storedNames isField

/-! ## Classes and fields -/

theorem key_mem_spokenNames {c : ClassDef} (found : schema.find? key = some c) :
    key ∈ schema.spokenNames :=
  List.mem_flatMap.mpr ⟨_, mem_classes_of_find? found, List.mem_cons_self⟩

/-- A class with a table is a class. -/
theorem key_mem_spokenNames_of_table? {table : String} (found : schema.table? key = some table) :
    key ∈ schema.spokenNames := by
  obtain ⟨c, member, -⟩ := List.exists_of_findSome?_eq_some found
  rw [ancestry, maxDepth, ancestryUpTo] at member
  split at member
  · cases member
  · next isClass => exact key_mem_spokenNames isClass

theorem field_mem_spokenNames {field : FieldDef} (found : schema.field? key name = some field) :
    name ∈ schema.spokenNames := by
  obtain ⟨c, member, isField⟩ := List.exists_of_findSome?_eq_some found
  obtain ⟨holder, isClass⟩ := exists_mem_classes_of_ancestryUpTo member
  have sameName := List.find?_some isField
  rw [← of_decide_eq_true sameName]
  refine List.mem_flatMap.mpr ⟨_, isClass, List.mem_cons_of_mem _ ?_⟩
  exact List.mem_map_of_mem (List.mem_of_find?_eq_some isField)

end Schema

end ObjectQuery

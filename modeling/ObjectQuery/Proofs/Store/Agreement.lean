import ObjectQuery.Schema.Catalog
import ObjectQuery.Proofs.Success

/-!
Contract: stores that agree on the objects of some classes.

Two stores have the same shape when they differ in the contents of their objects at most: each
handle belongs to an object in both or in neither, and then to one of the same class and key. They
agree on a class when the contents of its objects are the same as well.

Owns:
- `Store.SameShape`, `Store.AgreeOn` and what they say about look-ups;
- `Store.Conforms`, which says that objects hold only what their classes declare.

Does not own: chains of properties, expressions.
-/

namespace ObjectQuery

/-- The same fields, references and collections, in whatever order they are kept. -/
structure StoredObject.SameContent (object object' : StoredObject) : Prop where
  fields : ∀ name, object.fields.get? name = object'.fields.get? name
  references : ∀ name, object.references.get? name = object'.references.get? name
  collections : ∀ name, object.collections.get? name = object'.collections.get? name

namespace Store

/-- The stores have the same parameters, root and number of objects, and each handle has the same
class and key in both. -/
structure SameShape (store store' : Store) : Prop where
  parameters : store.parameters = store'.parameters
  root : store.root = store'.root
  size : store.objects.length = store'.objects.length
  identity : ∀ {handle : Nat} {object object' : StoredObject},
    store.objects[handle]? = some object → store'.objects[handle]? = some object' →
      object.className = object'.className ∧ object.key = object'.key

/-- The objects of these classes hold the same in both stores. -/
def AgreeOn (classes : List String) (store store' : Store) : Prop :=
  ∀ {handle : Nat} {object object' : StoredObject},
    store.objects[handle]? = some object → store'.objects[handle]? = some object' →
      object.className ∈ classes → object.SameContent object'

/-- If the handle belongs to an object, then to one of this class. -/
def IsOfClass (store : Store) (handle : Nat) (className : String) : Prop :=
  ∀ object, store.objects[handle]? = some object → object.className = className

/-- Objects hold only properties and collections that their classes declare or inherit, and a handle
among them belongs to no object or to one of exactly the declared class. -/
structure Conforms (schema : Schema) (store : Store) : Prop where
  field_declared : ∀ {handle : Nat} {object : StoredObject} {name : String} {value : Value},
    store.objects[handle]? = some object → object.fields.get? name = some value →
      (schema.field? object.className name).isSome
  reference_declared :
    ∀ {handle : Nat} {object : StoredObject} {name : String} {target : Option Nat},
      store.objects[handle]? = some object → object.references.get? name = some target →
        (schema.field? object.className name).isSome
  collection_declared :
    ∀ {handle : Nat} {object : StoredObject} {name : String} {elements : List Nat},
      store.objects[handle]? = some object → object.collections.get? name = some elements →
        (schema.collection? object.className name).isSome
  reference_class :
    ∀ {handle target : Nat} {object referred : StoredObject} {name : String},
      store.objects[handle]? = some object → object.references.get? name = some (some target) →
        store.objects[target]? = some referred →
          ∃ field, schema.field? object.className name = some field ∧
            field.references = some referred.className
  element_class :
    ∀ {handle element : Nat} {object member : StoredObject} {name : String} {elements : List Nat},
      store.objects[handle]? = some object → object.collections.get? name = some elements →
        element ∈ elements → store.objects[element]? = some member →
          ∃ collection, schema.collection? object.className name = some collection ∧
            collection.element = member.className

theorem object_eq_ok {store : Store} {handle : Nat} {object : StoredObject} :
    store.object handle = .ok object ↔ store.objects[handle]? = some object := by
  unfold Store.object
  cases store.objects[handle]? <;> simp

section Shape

variable {store store' : Store} (shape : store.SameShape store')

include shape

/-- A handle belongs to objects of the same class and key, or to none in either store. -/
theorem SameShape.object_cases (handle : Nat) :
    (store.objects[handle]? = none ∧ store'.objects[handle]? = none) ∨
      ∃ object object', store.objects[handle]? = some object ∧
        store'.objects[handle]? = some object' ∧
          object.className = object'.className ∧ object.key = object'.key := by
  by_cases inside : handle < store.objects.length
  · have inside' : handle < store'.objects.length := shape.size ▸ inside
    have found := List.getElem?_eq_getElem inside
    have found' := List.getElem?_eq_getElem inside'
    exact .inr ⟨_, _, found, found', shape.identity found found'⟩
  · have outside := Nat.le_of_not_lt inside
    exact .inl ⟨List.getElem?_eq_none outside, List.getElem?_eq_none (shape.size ▸ outside)⟩

theorem SameShape.parameter_eq (index : Nat) :
    store.parameter index = store'.parameter index := by
  rw [parameter, parameter, shape.parameters]

theorem SameShape.key_eq (handle : Nat) : store.key handle = store'.key handle := by
  rcases shape.object_cases handle with ⟨missing, missing'⟩ | ⟨_, _, found, found', same⟩
  · rw [key, key, object, object, missing, missing']
  · simp [key, object, found, found', same.2]

theorem SameShape.className_eq (handle : Nat) :
    store.className handle = store'.className handle := by
  rcases shape.object_cases handle with ⟨missing, missing'⟩ | ⟨_, _, found, found', same⟩
  · rw [className, className, object, object, missing, missing']
  · simp [className, object, found, found', same.1]

theorem SameShape.valueOf_eq (datum : Datum) : store.valueOf datum = store'.valueOf datum := by
  cases datum with
  | value value => rfl
  | object handle => exact shape.key_eq handle

section Content

variable {classes : List String} (agree : store.AgreeOn classes store')
  {handle : Nat} {className : String}
  (isOf : store.IsOfClass handle className) (member : className ∈ classes)

include agree isOf member

theorem AgreeOn.property_eq (name : String) :
    store.property handle name = store'.property handle name := by
  rcases shape.object_cases handle with ⟨missing, missing'⟩ | ⟨_, _, found, found', same⟩
  · rw [property, property, object, object, missing, missing']
  · have content := agree found found' (isOf _ found ▸ member)
    simp only [property, object, found, found', ok_bind, content.fields, content.references,
      same.1]

theorem AgreeOn.collection_eq (name : String) :
    store.collection handle name = store'.collection handle name := by
  rcases shape.object_cases handle with ⟨missing, missing'⟩ | ⟨_, _, found, found', same⟩
  · rw [collection, collection, object, object, missing, missing']
  · have content := agree found found' (isOf _ found ▸ member)
    simp only [collection, object, found, found', ok_bind, content.collections, same.1]

end Content

end Shape

end Store

end ObjectQuery

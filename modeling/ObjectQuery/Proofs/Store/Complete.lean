import ObjectQuery.Proofs.Expr.Involvement

/-!
Contract: stores whose objects have everything that their classes declare.

A chain of references that the schema resolves leads in such a store from object to object, or to
null. Objects may refer to one another in circles.

Owns:
- `Store.Holds` and `Store.Complete`;
- what a resolved chain leads to, and that the properties and collections behind it are there.

Does not own: expressions.
-/

namespace ObjectQuery

namespace Store

/-- The handle belongs to an object of this class. -/
def Holds (store : Store) (handle : Nat) (className : String) : Prop :=
  ∃ object, store.objects[handle]? = some object ∧ object.className = className

/-- Objects have all fields, references and collections that their classes declare or inherit, and
each declared reference is to nothing or to an object of exactly the declared class. Objects may
have more besides, and nothing is asked of the elements of collections. -/
structure Complete (schema : Schema) (store : Store) : Prop where
  field_held : ∀ {handle : Nat} {object : StoredObject} {name : String} {field : FieldDef},
    store.objects[handle]? = some object → schema.field? object.className name = some field →
      field.references = none → (object.fields.get? name).isSome
  reference_held :
    ∀ {handle : Nat} {object : StoredObject} {name key : String} {field : FieldDef},
      store.objects[handle]? = some object → schema.field? object.className name = some field →
        field.references = some key →
          object.fields.get? name = none ∧ (object.references.get? name).isSome
  collection_held :
    ∀ {handle : Nat} {object : StoredObject} {name : String} {collection : CollectionDef},
      store.objects[handle]? = some object →
        schema.collection? object.className name = some collection →
          (object.collections.get? name).isSome
  reference_class :
    ∀ {handle target : Nat} {object : StoredObject} {name key : String} {field : FieldDef},
      store.objects[handle]? = some object → schema.field? object.className name = some field →
        field.references = some key → object.references.get? name = some (some target) →
          store.Holds target key

/-- A datum that a chain may lead to: null, or an object of this class. -/
def LeadsTo (store : Store) (className : String) : Datum → Prop
  | .value value => value = .null
  | .object handle => store.Holds handle className

variable {schema : Schema} {store : Store} {handle : Nat} {className name : String}

theorem Holds.key_eq_ok (holds : store.Holds handle className) :
    ∃ value, store.key handle = .ok value := by
  obtain ⟨object, found, -⟩ := holds
  exact ⟨object.key, by simp [key, Store.object, found]⟩

theorem Holds.className_eq_ok (holds : store.Holds handle className) :
    store.className handle = .ok className := by
  obtain ⟨object, found, isOf⟩ := holds
  simp [Store.className, Store.object, found, isOf]

/-- Behind null a chain leads to null. -/
theorem follow_null (store : Store) (names : List String) :
    store.follow (.value .null) names = .ok (.value .null) := by
  induction names with
  | nil => rfl
  | cons name rest inductionHypothesis => exact inductionHypothesis

namespace Complete

variable (complete : store.Complete schema)

include complete

/-- A declared reference is to nothing or to an object of the declared class. -/
theorem reference_found
    {key : String}
    {field : FieldDef}
    (holds : store.Holds handle className)
    (declared : schema.field? className name = some field)
    (reference : field.references = some key) :
    ∃ datum, store.property handle name = .ok datum ∧ store.LeadsTo key datum := by
  obtain ⟨object, found, rfl⟩ := holds
  obtain ⟨noField, isHeld⟩ := complete.reference_held found declared reference
  obtain ⟨target, held⟩ := Option.isSome_iff_exists.mp isHeld
  cases target with
  | none => exact ⟨.value .null, by simp [property, Store.object, found, noField, held], rfl⟩
  | some target =>
    refine ⟨.object target, by simp [property, Store.object, found, noField, held], ?_⟩
    exact complete.reference_class found declared reference held

/-- A declared property has a value: its own, or the key of the object it refers to. -/
theorem property_found
    {field : FieldDef}
    (holds : store.Holds handle className)
    (declared : schema.field? className name = some field) :
    ∃ datum value, store.property handle name = .ok datum ∧ store.valueOf datum = .ok value := by
  cases reference : field.references with
  | none =>
    obtain ⟨object, found, rfl⟩ := holds
    obtain ⟨value, held⟩ :=
      Option.isSome_iff_exists.mp (complete.field_held found declared reference)
    exact ⟨.value value, value, by simp [property, Store.object, found, held], rfl⟩
  | some key =>
    obtain ⟨datum, held, leads⟩ := complete.reference_found holds declared reference
    cases datum with
    | value value => exact ⟨.value value, value, held, rfl⟩
    | object target =>
      obtain ⟨value, isKey⟩ := Holds.key_eq_ok leads
      exact ⟨.object target, value, held, isKey⟩

theorem collection_found
    {collection : CollectionDef}
    (holds : store.Holds handle className)
    (declared : schema.collection? className name = some collection) :
    ∃ elements, store.collection handle name = .ok elements := by
  obtain ⟨object, found, rfl⟩ := holds
  obtain ⟨elements, held⟩ := Option.isSome_iff_exists.mp (complete.collection_held found declared)
  exact ⟨elements, by simp [Store.collection, Store.object, found, held]⟩

/-- A chain of references that the schema resolves is followed to its end, or to null. -/
theorem follow_references
    (named : schema.StoredByName)
    {names before : List String}
    {steps : List Step}
    (resolved : schema.resolveFrom className before names = .ok steps)
    (holds : store.Holds handle className) :
    ∃ datum, store.follow (.object handle) names = .ok datum ∧
      store.LeadsTo (Schema.endOf className steps) datum := by
  induction names generalizing className before steps handle with
  | nil =>
    obtain rfl : [] = steps := Except.ok.inj resolved
    exact ⟨.object handle, rfl, holds⟩
  | cons name rest inductionHypothesis =>
    obtain ⟨field, key, target, others, declared, reference, found, remaining, rfl⟩ :=
      Schema.resolveFrom_cons resolved
    obtain ⟨datum, held, leads⟩ := complete.reference_found holds declared reference
    simp only [follow, step, held, ok_bind, Schema.endOf_cons]
    cases datum with
    | value value =>
      obtain rfl : value = .null := leads
      exact ⟨.value .null, follow_null store rest, rfl⟩
    | object next =>
      rw [← named key target found] at leads
      exact inductionHypothesis remaining leads

end Complete

end Store

end ObjectQuery

import Mathlib.Data.List.Nodup
import Mathlib.Data.List.Perm.Basic
import ObjectQuery.Proofs.Schema.Stored

/-!
Contract: a schema has each key once.

Owns:
- the keys of a table of named things, and what giving a name a new content does to them;
- `Schema.Keyed`, which adding a class keeps;
- `Schema.KeyedByName`, which holds of the schemas that are made by adding classes;
- look-ups in such tables as membership.

Does not own: inheritance.
-/

namespace ObjectQuery

namespace Named

variable {α : Type} {table table' : Named α} {name : String} {content : α}

/-- The names that have a content. -/
def keys (table : Named α) : List String :=
  table.map (·.1)

theorem mem_keys_of_mem (member : (name, content) ∈ table) : name ∈ table.keys :=
  List.mem_map_of_mem member

/-- A new name is added at the end. -/
theorem put_of_not_mem (fresh : name ∉ table.keys) :
    table.put name content = table ++ [(name, content)] := by
  induction table with
  | nil => rfl
  | cons entry rest inductionHypothesis =>
    have other : entry.1 ≠ name := fun same => fresh (same ▸ List.mem_cons_self)
    have later : name ∉ keys rest := fun member => fresh (List.mem_cons_of_mem _ member)
    rw [put, if_neg other, inductionHypothesis later]
    rfl

theorem keys_put_of_mem (known : name ∈ table.keys) :
    (table.put name content).keys = table.keys := by
  induction table with
  | nil => cases known
  | cons entry rest inductionHypothesis =>
    rw [put]
    by_cases same : entry.1 = name
    · rw [if_pos same, ← same]
      rfl
    · rw [if_neg same]
      have later : name ∈ keys rest := (List.mem_cons.mp known).resolve_left (Ne.symm same)
      exact congrArg (entry.1 :: ·) (inductionHypothesis later)

theorem nodup_keys_put (distinct : table.keys.Nodup) : (table.put name content).keys.Nodup := by
  by_cases known : name ∈ table.keys
  · rw [keys_put_of_mem known]
    exact distinct
  · rw [put_of_not_mem known, keys, List.map_append]
    exact distinct.append (List.nodup_singleton name) (List.disjoint_singleton.mpr known)

theorem isSome_get?_iff : (table.get? name).isSome = true ↔ name ∈ table.keys := by
  simp [get?, keys]

/-- With distinct names a look-up is membership. -/
theorem get?_eq_some_iff (distinct : table.keys.Nodup) :
    table.get? name = some content ↔ (name, content) ∈ table := by
  induction table with
  | nil => simp [get?]
  | cons entry rest inductionHypothesis =>
    obtain ⟨key, kept⟩ := entry
    obtain ⟨fresh, distinct⟩ := List.nodup_cons.mp distinct
    have inRest := inductionHypothesis distinct
    rw [get?] at inRest ⊢
    rw [List.lookup_cons, List.mem_cons, Prod.mk.injEq]
    by_cases same : name = key
    · subst same
      have notLater : (name, content) ∉ rest := fun member => fresh (mem_keys_of_mem member)
      simp [notLater, eq_comm]
    · have notHere : (name == key) = false := beq_eq_false_iff_ne.mpr same
      simpa [notHere, same] using inRest

/-- The order of distinct names does not matter. -/
theorem get?_of_perm (distinct : table.keys.Nodup) (perm : table.Perm table') (name : String) :
    table.get? name = table'.get? name := by
  have distinct' : table'.keys.Nodup := (perm.map _).nodup_iff.mp distinct
  apply Option.ext
  intro content
  rw [get?_eq_some_iff distinct, get?_eq_some_iff distinct', perm.mem_iff]

end Named

namespace Schema

/-- Each key occurs once. -/
def Keyed (schema : Schema) : Prop :=
  schema.classes.keys.Nodup

/-- Each key occurs once, and a class is kept under its name. -/
structure KeyedByName (schema : Schema) : Prop where
  keyed : schema.Keyed
  named : ∀ entry ∈ schema.classes, entry.2.name = entry.1

variable {schema schema' : Schema}

/-! ## Making schemas -/

theorem Keyed.add (keyed : schema.Keyed) (c : ClassDef) : (schema.add c).2.Keyed := by
  unfold Schema.add
  split
  · exact keyed
  · exact Named.nodup_keys_put keyed

/-- A class under a new name is added behind the others. -/
theorem classes_add {c : ClassDef} (fresh : c.name ∉ schema.classes.keys) :
    (schema.add c).2.classes = schema.classes ++ [(c.name, c)] := by
  have free : ¬(schema.find? c.name).isSome = true :=
    fun known => fresh (Named.isSome_get?_iff.mp known)
  rw [Schema.add, if_neg free]
  exact Named.put_of_not_mem fresh

theorem KeyedByName.add (keyed : schema.KeyedByName) (c : ClassDef) :
    (schema.add c).2.KeyedByName := by
  refine ⟨keyed.keyed.add c, ?_⟩
  by_cases known : (schema.find? c.name).isSome = true
  · rw [Schema.add, if_pos known]
    exact keyed.named
  · have fresh : c.name ∉ schema.classes.keys := fun member =>
      known (Named.isSome_get?_iff.mpr member)
    rw [classes_add fresh]
    exact List.forall_mem_append.mpr ⟨keyed.named, List.forall_mem_singleton.mpr rfl⟩

theorem keyedByName_ofClasses (classes : List ClassDef) : (ofClasses classes).KeyedByName := by
  have added (schema : Schema) (keyed : schema.KeyedByName) :
      (classes.foldl (fun schema c => (schema.add c).2) schema).KeyedByName := by
    induction classes generalizing schema with
    | nil => exact keyed
    | cons c rest inductionHypothesis => exact inductionHypothesis _ (keyed.add c)
  exact added empty ⟨List.nodup_nil, List.forall_mem_nil _⟩

/-- Classes of distinct names are all added, in their order. -/
theorem classes_ofClasses {classes : List ClassDef} (distinct : (classes.map (·.name)).Nodup) :
    (ofClasses classes).classes = classes.map fun c => (c.name, c) := by
  have added (schema : Schema)
      (apart : ∀ c ∈ classes, c.name ∉ schema.classes.keys) :
      (classes.foldl (fun schema c => (schema.add c).2) schema).classes =
        schema.classes ++ classes.map fun c => (c.name, c) := by
    induction classes generalizing schema with
    | nil => exact (List.append_nil _).symm
    | cons c rest inductionHypothesis =>
      obtain ⟨fresh, distinct⟩ := List.nodup_cons.mp distinct
      obtain ⟨apartFirst, apartRest⟩ := List.forall_mem_cons.mp apart
      have grown := classes_add apartFirst
      rw [List.foldl_cons, inductionHypothesis distinct, grown, List.append_assoc]
      · rfl
      · intro other member
        rw [grown, Named.keys, List.map_append, List.mem_append]
        rintro (known | isNew)
        · exact apartRest other member known
        · have same : other.name = c.name := List.mem_singleton.mp isNew
          exact fresh (List.mem_map.mpr ⟨other, member, same⟩)
  exact added empty fun _ _ => List.not_mem_nil

/-! ## Looking up classes -/

theorem Keyed.find?_eq_some_iff (keyed : schema.Keyed) {key : String} {c : ClassDef} :
    schema.find? key = some c ↔ (key, c) ∈ schema.classes :=
  Named.get?_eq_some_iff keyed

/-- A class that is kept somewhere is found by its name. -/
theorem KeyedByName.find?_name (keyed : schema.KeyedByName) {key : String} {c : ClassDef}
    (member : (key, c) ∈ schema.classes) : schema.find? c.name = some c := by
  rw [keyed.named _ member]
  exact keyed.keyed.find?_eq_some_iff.mpr member

theorem KeyedByName.name_eq (keyed : schema.KeyedByName) {key : String} {c : ClassDef}
    (found : schema.find? key = some c) : c.name = key :=
  keyed.named _ (mem_classes_of_find? found)

end Schema

end ObjectQuery

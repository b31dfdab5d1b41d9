import ObjectQuery.Proofs.Schema.Hierarchy

/-!
Contract: what a class inherits is what its parent has.

A look-up goes through the class and its ancestors, of which it sees the first 64. The look-up from
the parent is a walk of its own, so it sees one class more. That class makes no difference: on a
chain with at most 64 classes it has been met before, and parents may run in a circle.

Owns:
- the ancestry one class further;
- `findSome?_ancestry`, the law of all look-ups along an ancestry;
- `inherited_lookups_from_parent`, which says it of fields, collections and tables.

Does not own: the classes below a class.
-/

namespace ObjectQuery.Schema

variable {schema : Schema} {key parent : String} {c d : ClassDef}
variable {α : Type} {read : ClassDef → Option α}

theorem ancestryUpTo_none (schema : Schema) (limit : Nat) :
    schema.ancestryUpTo limit none = [] := by
  cases limit <;> rfl

theorem ancestryUpTo_of_find? (found : schema.find? key = some c) (limit : Nat) :
    schema.ancestryUpTo (limit + 1) (some key) = c :: schema.ancestryUpTo limit c.parent := by
  simp only [ancestryUpTo, found]

/-- A walk with one more class goes on where the shorter one ends. -/
theorem ancestryUpTo_succ (schema : Schema) (key : String) (limit : Nat) :
    schema.ancestryUpTo (limit + 1) (some key) =
      schema.ancestryUpTo limit (some key) ++ (schema.ancestorAt key limit).toList := by
  induction limit generalizing key with
  | zero =>
    rw [ancestryUpTo, ancestryUpTo, ancestorAt]
    cases schema.find? key <;> rfl
  | succ limit inductionHypothesis =>
    cases found : schema.find? key with
    | none => simp [ancestryUpTo, found, ancestorAt_eq_none found]
    | some c =>
      rw [ancestryUpTo_of_find? found, ancestryUpTo_of_find? found, ancestorAt_succ found]
      cases isParent : c.parent with
      | none => simp [ancestryUpTo_none]
      | some parent =>
        rw [inductionHypothesis]
        rfl

/-- The class behind the end of a walk was met before, if the walk meets few enough classes and that
class is not the one it starts from. -/
theorem mem_ancestryUpTo_of_ancestorAt {limit : Nat}
    (found : schema.find? key = some c)
    (isParent : c.parent = some parent)
    (bounded : (schema.lineage key).encard ≤ ↑(limit + 1))
    (reached : schema.ancestorAt parent limit = some d)
    (other : d ≠ c) :
    d ∈ schema.ancestryUpTo limit (some parent) := by
  have fromParent (steps : Nat) :
      schema.ancestorAt key (steps + 1) = schema.ancestorAt parent steps := by
    rw [ancestorAt_succ found, isParent, Option.bind_some]
  have member : d ∈ schema.lineage key := ⟨limit + 1, (fromParent limit).trans reached⟩
  obtain ⟨steps, inLimit, reachedEarly⟩ := exists_steps_lt_of_mem_lineage bounded member
  cases steps with
  | zero =>
    rw [ancestorAt, found] at reachedEarly
    exact absurd (Option.some.inj reachedEarly).symm other
  | succ steps =>
    rw [fromParent] at reachedEarly
    apply mem_ancestryUpTo_iff.mpr
    exact ⟨parent, rfl, steps, Nat.lt_of_succ_lt_succ inLimit, reachedEarly⟩

/-- A look-up takes what the class has itself, or else what the look-up from its parent takes. -/
theorem findSome?_ancestry
    (found : schema.find? key = some c)
    (isParent : c.parent = some parent)
    (bounded : (schema.lineage key).encard ≤ 64) :
    (schema.ancestry key).findSome? read =
      (read c).or ((schema.ancestry parent).findSome? read) := by
  have first : schema.ancestry key = c :: schema.ancestryUpTo 63 (some parent) :=
    isParent ▸ ancestryUpTo_of_find? found 63
  have second : schema.ancestry parent =
      schema.ancestryUpTo 63 (some parent) ++ (schema.ancestorAt parent 63).toList :=
    ancestryUpTo_succ schema parent 63
  rw [first, second, List.findSome?_append, List.findSome?_cons]
  cases own : read c with
  | some _ => rfl
  | none =>
    -- Only the class behind the end of the shorter walk can tell the two look-ups apart.
    cases reached : schema.ancestorAt parent 63 with
    | none => simp
    | some d =>
      cases further : read d with
      | none => simp [further]
      | some _ =>
        have other : d ≠ c := by
          intro same
          rw [same, own] at further
          cases further
        have member := mem_ancestryUpTo_of_ancestorAt found isParent bounded reached other
        have isSome : ((schema.ancestryUpTo 63 (some parent)).findSome? read).isSome :=
          List.findSome?_isSome_iff.mpr ⟨d, member, by rw [further]; rfl⟩
        obtain ⟨earlier, isEarlier⟩ := Option.isSome_iff_exists.mp isSome
        rw [isEarlier]
        rfl

/-- Where the walk up from a class meets at most as many classes as an ancestry may have, each field
and each collection of the class is its own one of that name or else its parent's, and its table is
its own, if that has a name, or else its parent's. -/
theorem inherited_lookups_from_parent
    (found : schema.find? key = some c)
    (isParent : c.parent = some parent)
    (bounded : (schema.lineage key).encard ≤ 64) :
    (∀ name, schema.field? key name = (c.ownField? name).or (schema.field? parent name)) ∧
      (∀ name,
        schema.collection? key name =
          (c.ownCollection? name).or (schema.collection? parent name)) ∧
      schema.table? key = (c.table.filter (· ≠ "")).or (schema.table? parent) :=
  ⟨fun _ => findSome?_ancestry found isParent bounded,
    fun _ => findSome?_ancestry found isParent bounded,
    findSome?_ancestry found isParent bounded⟩

/-- Two classes that are each other's parents, both kept under keys that are not their names: the
first one has the field of the second. -/
theorem inherited_lookups_in_circle_under_other_keys :
    ∃ schema : Schema,
      schema.find? "P" = some (.derived "Person" "M") ∧
        (schema.lineage "P").encard ≤ 64 ∧
        schema.find? "Person" = none ∧
        (schema.field? "P" "Since").map (·.column) = some "since" ∧
        schema.table? "P" = some "member" := by
  let person : ClassDef := .derived "Person" "M"
  let member : ClassDef :=
    { ClassDef.stored "Member" "member" with
      parent := some "P"
      fields := [.plain "Since" "since" .dateTime] }
  let circle : Schema := ⟨[("P", person), ("M", member)]⟩
  have bounded : (circle.lineage "P").encard ≤ 64 :=
    encard_lineage_le.trans (Nat.cast_le.mpr (by decide : circle.classes.length ≤ 64))
  have found : circle.find? "P" = some person := rfl
  have isParent : person.parent = some "M" := rfl
  have inherited := inherited_lookups_from_parent found isParent bounded
  refine ⟨circle, found, bounded, rfl, ?_, ?_⟩
  · rw [inherited.1]
    decide
  · rw [inherited.2.2]
    decide

end ObjectQuery.Schema

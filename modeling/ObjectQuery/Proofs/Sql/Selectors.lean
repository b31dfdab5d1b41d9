import ObjectQuery.Proofs.Schema.Hierarchy
import ObjectQuery.Proofs.Value.Sameness
import ObjectQuery.Sql.Statement
import ObjectQuery.Sql.Text

/-!
Contract: the selector values of a class.

The rows of a class are those with the selector values of the class and of its subclasses. They are
listed twice, apart from each other: without repetitions where rows are kept, and with the names of
the classes where the class of a row is asked for.

Owns:
- the concrete classes among a class and its subclasses, and that a subclass has no others;
- `selector_values_exact_and_nested`, which also compares the two lists.

Does not own: whether a statement has a restriction.
-/

namespace ObjectQuery

open Sql

/-! ## Repeated values -/

namespace Schema

variable {schema : Schema} {key : String} {c d : ClassDef}
variable {values : List Value} {v : Value}

theorem distinctValues_concat (values : List Value) (v : Value) :
    distinctValues (values ++ [v]) =
      if (distinctValues values).any (·.same v) then
        distinctValues values
      else
        distinctValues values ++ [v] := by
  rw [distinctValues, List.foldl_append]
  rfl

theorem any_same_iff : values.any (·.same v) = true ↔ v.IsAmong values := by
  rw [List.any_eq_true]
  rfl

theorem isAmong_distinctValues_iff : v.IsAmong (distinctValues values) ↔ v.IsAmong values := by
  induction values using List.reverseRec with
  | nil => exact Iff.rfl
  | append_singleton values last inductionHypothesis =>
    rw [distinctValues_concat, Value.isAmong_append, ← inductionHypothesis]
    by_cases repeated : (distinctValues values).any (·.same last) = true
    · rw [if_pos repeated]
      obtain ⟨kept, member, isLast⟩ := any_same_iff.mp repeated
      have sameAsKept : v.IsAmong [last] → v.IsAmong (distinctValues values) := fun same =>
        ⟨kept, member, Value.same_trans isLast (Value.isAmong_singleton.mp same)⟩
      exact ⟨.inl, fun among => among.elim id sameAsKept⟩
    · rw [if_neg repeated, Value.isAmong_append]

theorem pairwise_distinctValues (values : List Value) :
    (distinctValues values).Pairwise fun v w => v.same w = false := by
  induction values using List.reverseRec with
  | nil => exact List.Pairwise.nil
  | append_singleton values last inductionHypothesis =>
    rw [distinctValues_concat]
    by_cases repeated : (distinctValues values).any (·.same last) = true
    · rw [if_pos repeated]
      exact inductionHypothesis
    · rw [if_neg repeated]
      apply List.pairwise_append.mpr
      refine ⟨inductionHypothesis, List.pairwise_singleton _ _, fun kept member other isLast => ?_⟩
      obtain rfl := List.mem_singleton.mp isLast
      by_contra same
      exact repeated (any_same_iff.mpr ⟨kept, member, Bool.eq_true_of_not_eq_false same⟩)

theorem distinctValues_eq_nil_iff : distinctValues values = [] ↔ values = [] := by
  induction values using List.reverseRec with
  | nil => exact Iff.rfl
  | append_singleton values last inductionHypothesis =>
    rw [distinctValues_concat]
    cases isEmpty : distinctValues values with
    | nil => simp
    | cons first rest =>
      by_cases repeated : (first :: rest).any (·.same last) = true
      · rw [if_pos repeated]
        simp
      · rw [if_neg repeated]
        simp

/-! ## Classes with rows -/

/-- The classes whose rows are those of a class: the class itself and its subclasses, abstract ones
aside. -/
def concrete (schema : Schema) (key : String) : List ClassDef :=
  ((schema.find? key).toList ++ schema.subclasses key).filter (!·.isAbstract)

theorem mem_concrete_iff :
    c ∈ schema.concrete key ↔
      (schema.find? key = some c ∨ c ∈ schema.subclasses key) ∧ c.isAbstract = false := by
  rw [concrete, List.mem_filter, List.mem_append, Option.mem_toList, Bool.not_eq_true']

/-- The classes below a subclass are below the class, or the class itself in a circle of parents. -/
theorem concrete_subset (keyed : schema.KeyedByName) (isSubclass : d ∈ schema.subclasses key) :
    schema.concrete d.name ⊆ schema.concrete key := by
  obtain ⟨isClass, -, isBelow⟩ := (mem_subclasses_iff keyed).mp isSubclass
  intro c member
  obtain ⟨reached, hasRows⟩ := mem_concrete_iff.mp member
  apply mem_concrete_iff.mpr
  refine ⟨?_, hasRows⟩
  rcases reached with isSame | isLower
  · rw [isClass] at isSame
    exact .inr (Option.some.inj isSame ▸ isSubclass)
  · obtain ⟨isClassToo, -, isBelowToo⟩ := (mem_subclasses_iff keyed).mp isLower
    by_cases isStart : c.name = key
    · exact .inl (isStart ▸ isClassToo)
    · exact .inr ((mem_subclasses_iff keyed).mpr ⟨isClassToo, isStart, isBelowToo.trans isBelow⟩)

theorem isAmong_selectorValues_iff :
    v.IsAmong (schema.selectorValues key) ↔
      ∃ c ∈ schema.concrete key, ∃ w, c.selectorValue = some w ∧ w.same v = true := by
  rw [selectorValues, isAmong_distinctValues_iff]
  constructor
  · intro ⟨w, member, same⟩
    obtain ⟨c, isConcrete, isValue⟩ := List.mem_filterMap.mp member
    exact ⟨c, isConcrete, w, isValue, same⟩
  · intro ⟨c, isConcrete, w, isValue, same⟩
    exact ⟨w, List.mem_filterMap.mpr ⟨c, isConcrete, isValue⟩, same⟩

end Schema

/-! ## Restrictions and class tags -/

/-- The values that a case distinction goes by. -/
def Sql.Term.branchValues : Term → List Value
  | .caseOf _ branches => branches.map (·.1)
  | _ => []

/-- A restriction and a class tag go by the same values; without any, the restriction keeps no row
and the tag is null. -/
structure Sql.Restriction.Matches (restriction : Restriction) (tag : Term) : Prop where
  isAmong_iff : ∀ v : Value, v.IsAmong restriction.values ↔ v.IsAmong tag.branchValues
  isEmpty_iff : restriction.values = [] ↔ tag.branchValues = []
  texts : restriction.values = [] → ∀ config,
    restriction.text config = "(1=0)" ∧ tag.text config = config.keyword "null"

namespace Schema

variable {schema : Schema} {key : String} {field : FieldDef} {name : RowAlias}

theorem restrictionOf_eq
    (inHierarchy : schema.hasSubclassing key = true)
    (selector : schema.selectorField? key = some field) :
    restrictionOf schema name key =
      .ok (some ⟨⟨name, field.column⟩, schema.selectorValues key⟩) := by
  rw [restrictionOf, if_pos inHierarchy, selector]

/-- The branches of a class tag, which is null without any. -/
theorem classTagTerm_eq
    (name : RowAlias)
    (inHierarchy : schema.hasSubclassing key = true)
    (selector : schema.selectorField? key = some field) :
    ∃ branches : List (Value × String),
      branches.map (·.1) = (schema.concrete key).filterMap (·.selectorValue) ∧
        classTagTerm schema ⟨name, key⟩ =
          if branches.isEmpty then .literal .null else .caseOf ⟨name, field.column⟩ branches := by
  refine ⟨(schema.concrete key).filterMap fun c => c.selectorValue.map fun v => (v, c.name), ?_, ?_⟩
  · rw [List.map_filterMap]
    congr 1
    funext c
    rw [Option.map_map]
    exact Option.map_id'
  · rw [classTagTerm, if_pos inHierarchy, selector]
    rfl

theorem matches_classTagTerm
    (inHierarchy : schema.hasSubclassing key = true)
    (selector : schema.selectorField? key = some field) :
    (⟨⟨name, field.column⟩, schema.selectorValues key⟩ : Restriction).Matches
      (classTagTerm schema ⟨name, key⟩) := by
  obtain ⟨branches, values, isTag⟩ := classTagTerm_eq name inHierarchy selector
  have listed : schema.selectorValues key = distinctValues (branches.map (·.1)) :=
    congrArg distinctValues values.symm
  have tagValues : (classTagTerm schema ⟨name, key⟩).branchValues = branches.map (·.1) := by
    rw [isTag]
    cases branches <;> rfl
  have empty_iff : schema.selectorValues key = [] ↔ branches.map (·.1) = [] := by
    rw [listed]
    exact distinctValues_eq_nil_iff
  constructor
  · intro v
    rw [tagValues, listed]
    exact isAmong_distinctValues_iff
  · rw [tagValues]
    exact empty_iff
  · intro noValues config
    have noBranches : branches = [] := List.map_eq_nil_iff.mp (empty_iff.mp noValues)
    constructor
    · rw [Restriction.text, if_pos (List.isEmpty_iff.mpr noValues)]
      rfl
    · rw [isTag, noBranches]
      rfl

/-- Where classes are kept under their names, the selector values of a class are those of the
concrete classes among it and its subclasses, each listed once, and those of a subclass are among
them. In a hierarchy with a selector field, the restriction to the class and its class tag go by
these values. -/
theorem selector_values_exact_and_nested (keyed : schema.KeyedByName) (key : String) :
    (∀ v : Value,
        v.IsAmong (schema.selectorValues key) ↔
          ∃ c w,
            (schema.find? key = some c ∨ c ∈ schema.subclasses key) ∧
              c.isAbstract = false ∧ c.selectorValue = some w ∧ w.same v = true) ∧
      ((schema.selectorValues key).Pairwise fun v w => v.same w = false) ∧
      (∀ d ∈ schema.subclasses key, ∀ v : Value,
        v.IsAmong (schema.selectorValues d.name) → v.IsAmong (schema.selectorValues key)) ∧
      ∀ (name : RowAlias) (field : FieldDef),
        schema.hasSubclassing key = true → schema.selectorField? key = some field →
          ∃ restriction,
            restrictionOf schema name key = .ok (some restriction) ∧
              restriction.values = schema.selectorValues key ∧
              restriction.Matches (classTagTerm schema ⟨name, key⟩) := by
  refine ⟨?_, pairwise_distinctValues _, ?_, ?_⟩
  · intro v
    rw [isAmong_selectorValues_iff]
    simp only [mem_concrete_iff]
    constructor
    · intro ⟨c, ⟨isBelow, hasRows⟩, w, isValue, same⟩
      exact ⟨c, w, isBelow, hasRows, isValue, same⟩
    · intro ⟨c, w, isBelow, hasRows, isValue, same⟩
      exact ⟨c, ⟨isBelow, hasRows⟩, w, isValue, same⟩
  · intro d isSubclass v among
    obtain ⟨c, isConcrete, hasValue⟩ := isAmong_selectorValues_iff.mp among
    apply isAmong_selectorValues_iff.mpr
    exact ⟨c, concrete_subset keyed isSubclass isConcrete, hasValue⟩
  · intro name field inHierarchy selector
    exact ⟨_, restrictionOf_eq inHierarchy selector, rfl, matches_classTagTerm inHierarchy selector⟩

/-- The class of all vehicles has no rows of its own, and the values of the classes below it differ
in scale only, so that one of them is listed. -/
theorem selector_values_exact_and_nested_scales :
    ∃ (schema : Schema) (restriction : Restriction),
      schema.KeyedByName ∧
        restrictionOf schema ⟨0, 1⟩ "Vehicle" = .ok (some restriction) ∧
        restriction.Matches (classTagTerm schema ⟨⟨0, 1⟩, "Vehicle"⟩) ∧
        Value.IsAmong (.decimal (.ofInt 1 (by decide))) (schema.selectorValues "Bike") ∧
        Value.IsAmong (.decimal (.ofInt 1 (by decide))) restriction.values := by
  let vehicle : ClassDef :=
    ((ClassDef.stored "Vehicle" "vehicle").withField
      (.plain "Kind" "kind" .decimal)).withSelectorField "Kind" |>.asAbstract
  let bike : ClassDef :=
    (ClassDef.derived "Bike" "Vehicle").withSelectorValue
      (.decimal ⟨false, 100, 2, by decide, by decide⟩)
  let car : ClassDef :=
    (ClassDef.derived "Car" "Vehicle").withSelectorValue
      (.decimal ⟨false, 10, 1, by decide, by decide⟩)
  let schema := ofClasses [vehicle, bike, car]
  have keyed : schema.KeyedByName := keyedByName_ofClasses _
  have inBike :=
    ((selector_values_exact_and_nested keyed "Bike").1
      (.decimal (.ofInt 1 (by decide)))).mpr
      ⟨bike, _, .inl rfl, rfl, rfl, by decide⟩
  have isSubclass : bike ∈ schema.subclasses "Vehicle" :=
    (mem_subclasses_iff keyed).mpr ⟨rfl, by decide, .single ⟨bike, rfl, rfl⟩⟩
  obtain ⟨-, -, nested, inHierarchy⟩ := selector_values_exact_and_nested keyed "Vehicle"
  obtain ⟨restriction, isRestriction, values, sameValues⟩ :=
    inHierarchy ⟨0, 1⟩ (.plain "Kind" "kind" .decimal) (by cbv) rfl
  refine ⟨schema, restriction, keyed, isRestriction, sameValues, inBike, ?_⟩
  rw [values]
  exact nested bike isSubclass _ inBike

end Schema

end ObjectQuery

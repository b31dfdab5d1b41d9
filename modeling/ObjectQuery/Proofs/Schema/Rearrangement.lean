import ObjectQuery.Proofs.Schema.Keys
import ObjectQuery.Schema.Resolution

/-!
Contract: what a schema answers does not depend on the order of its classes.

All answers come from two questions, the class with a key and the direct subclasses in their order.
The first has one answer because keys are distinct, the second because the subclasses are sorted.

Owns:
- the order by name as a linear order of the entries of a schema;
- `Schema.SameAnswers`, schemas that no question tells apart, and the references followed in them;
- that rearranged classes make such schemas.

Does not own: statements.
-/

namespace ObjectQuery.Schema

/-! ## The order by name -/

/-- Names are compared first, then keys. -/
theorem byName_eq_isLE (x y : String × ClassDef) :
    byName x y = (compareLex (compareOn (·.2.name)) (compareOn (·.1)) x y).isLE := by
  rw [byName, compareLex, compareOn, compareOn]
  cases compare x.2.name y.2.name with
  | lt | gt => rfl
  | eq => cases compare x.1 y.1 <;> rfl

theorem byName_trans {x y z : String × ClassDef}
    (first : byName x y = true)
    (second : byName y z = true) : byName x z = true := by
  rw [byName_eq_isLE] at first second ⊢
  exact Std.TransCmp.isLE_trans first second

theorem byName_total (x y : String × ClassDef) : (byName x y || byName y x) = true := by
  rw [byName_eq_isLE, byName_eq_isLE]
  have backward : compareLex (compareOn (·.2.name)) (compareOn (·.1)) y x =
      (compareLex (compareOn (·.2.name)) (compareOn (·.1)) x y).swap :=
    Std.OrientedCmp.eq_swap
  rw [backward]
  cases compareLex (compareOn (·.2.name)) (compareOn (·.1)) x y <;> rfl

theorem key_eq_of_byName {x y : String × ClassDef}
    (notAfter : byName x y = true)
    (notBefore : byName y x = true) : x.1 = y.1 := by
  rw [byName_eq_isLE] at notAfter notBefore
  have same := Std.OrientedCmp.isLE_antisymm notAfter notBefore
  rw [compareLex, Ordering.then_eq_eq] at same
  exact Std.LawfulEqCmp.eq_of_compare same.2

/-! ## Schemas that no question tells apart -/

/-- The schemas answer every question alike, with the results in the same order. -/
structure SameAnswers (first second : Schema) : Prop where
  find? : first.find? = second.find?
  directSubclasses : first.directSubclasses = second.directSubclasses
  require : first.require = second.require
  ancestry : first.ancestry = second.ancestry
  field? : first.field? = second.field?
  requireField : first.requireField = second.requireField
  referenced? : first.referenced? = second.referenced?
  collection? : first.collection? = second.collection?
  requireCollection : first.requireCollection = second.requireCollection
  table? : first.table? = second.table?
  primaryKey? : first.primaryKey? = second.primaryKey?
  subclasses : first.subclasses = second.subclasses
  selectorValue? : first.selectorValue? = second.selectorValue?
  selectorValues : first.selectorValues = second.selectorValues
  selectorField? : first.selectorField? = second.selectorField?
  hasSubclassing : first.hasSubclassing = second.hasSubclassing

variable {first second : Schema}

theorem ancestryUpTo_congr (sameClasses : first.find? = second.find?) :
    first.ancestryUpTo = second.ancestryUpTo := by
  funext limit start
  induction limit generalizing start with
  | zero => rfl
  | succ limit inductionHypothesis =>
    cases start with
    | none => rfl
    | some key => simp only [ancestryUpTo, sameClasses, inductionHypothesis]

theorem subclassesFrom_congr (sameSubclasses : first.directSubclasses = second.directSubclasses) :
    first.subclassesFrom = second.subclassesFrom := by
  funext start rounds found pending
  induction rounds generalizing found pending with
  | zero => rfl
  | succ rounds inductionHypothesis =>
    cases pending with
    | nil => rfl
    | cons name pending => simp only [subclassesFrom, sameSubclasses, inductionHypothesis]

/-- The two questions that decide all others. -/
theorem sameAnswers_of_find?
    (sameClasses : first.find? = second.find?)
    (sameSubclasses : first.directSubclasses = second.directSubclasses)
    (sameLength : first.classes.length = second.classes.length) : first.SameAnswers second := by
  have require : first.require = second.require := by
    funext key
    rw [Schema.require, Schema.require, sameClasses]
  have ancestry : first.ancestry = second.ancestry := by
    funext key
    rw [Schema.ancestry, Schema.ancestry, ancestryUpTo_congr sameClasses]
  have field? : first.field? = second.field? := by
    funext key name
    rw [Schema.field?, Schema.field?, ancestry]
  have collection? : first.collection? = second.collection? := by
    funext key name
    rw [Schema.collection?, Schema.collection?, ancestry]
  have subclasses : first.subclasses = second.subclasses := by
    funext key
    rw [Schema.subclasses, Schema.subclasses, subclassesFrom_congr sameSubclasses, sameLength]
  exact {
    find? := sameClasses
    directSubclasses := sameSubclasses
    require
    ancestry
    field?
    requireField := by
      funext key name
      rw [Schema.requireField, Schema.requireField, require, field?]
    referenced? := by
      funext field
      rw [Schema.referenced?, Schema.referenced?, sameClasses]
    collection?
    requireCollection := by
      funext key name
      rw [Schema.requireCollection, Schema.requireCollection, require, collection?]
    table? := by
      funext key
      rw [Schema.table?, Schema.table?, ancestry]
    primaryKey? := by
      funext key
      rw [Schema.primaryKey?, Schema.primaryKey?, ancestry, field?]
    subclasses
    selectorValue? := by
      funext key
      rw [Schema.selectorValue?, Schema.selectorValue?, sameClasses]
    selectorValues := by
      funext key
      simp only [Schema.selectorValues, sameClasses, subclasses]
    selectorField? := by
      funext key
      rw [Schema.selectorField?, Schema.selectorField?, ancestry, field?]
    hasSubclassing := by
      funext key
      simp only [Schema.hasSubclassing, sameClasses, sameSubclasses] }

section

variable (same : first.SameAnswers second)

include same

theorem SameAnswers.resolveFrom : first.resolveFrom = second.resolveFrom := by
  funext owner before names
  induction names generalizing owner before with
  | nil => rfl
  | cons name rest inductionHypothesis =>
    simp only [Schema.resolveFrom, same.requireField, same.require, inductionHypothesis]

/-- Chains of references are followed alike. -/
theorem SameAnswers.resolveReferences : first.resolveReferences = second.resolveReferences := by
  funext root names
  rw [Schema.resolveReferences, Schema.resolveReferences, same.require, same.resolveFrom]

end

/-! ## Rearranged classes -/

/-- Classes of distinct keys have one order by name. -/
theorem mergeSort_byName_of_perm {entries others : Named ClassDef}
    (distinct : entries.keys.Nodup)
    (perm : entries.Perm others) : entries.mergeSort byName = others.mergeSort byName := by
  have sorted (listed : Named ClassDef) :
      (listed.mergeSort byName).Pairwise (byName · · = true) := by
    apply List.pairwise_mergeSort
    · exact fun _ _ _ => byName_trans
    · exact byName_total
  have rearranged : (entries.mergeSort byName).Perm (others.mergeSort byName) :=
    (List.mergeSort_perm _ _).trans (perm.trans (List.mergeSort_perm _ _).symm)
  refine rearranged.eq_of_pairwise ?_ (sorted entries) (sorted others)
  intro x y isEntry isOther notAfter notBefore
  have inEntries : x ∈ entries := List.mem_mergeSort.mp isEntry
  have inEntriesToo : y ∈ entries := perm.mem_iff.mpr (List.mem_mergeSort.mp isOther)
  exact List.inj_on_of_nodup_map distinct inEntries inEntriesToo
    (key_eq_of_byName notAfter notBefore)

/-- Sorting leaves no trace of the order in which the classes are kept. -/
theorem directSubclasses_of_perm
    (keyed : first.Keyed)
    (perm : first.classes.Perm second.classes) :
    first.directSubclasses = second.directSubclasses := by
  funext key
  rw [directSubclasses, directSubclasses, mergeSort_byName_of_perm _ (perm.filter _)]
  exact keyed.sublist (List.filter_sublist.map _)

/-- With distinct keys the order of the classes does not matter. -/
theorem sameAnswers_of_perm
    (keyed : first.Keyed)
    (perm : first.classes.Perm second.classes) : first.SameAnswers second :=
  sameAnswers_of_find?
    (funext (Named.get?_of_perm keyed perm))
    (directSubclasses_of_perm keyed perm)
    perm.length_eq

/-- Classes of distinct names make the same schema in whatever order they are added. -/
theorem sameAnswers_ofClasses {classes others : List ClassDef}
    (distinct : (classes.map (·.name)).Nodup)
    (perm : classes.Perm others) : (ofClasses classes).SameAnswers (ofClasses others) := by
  have distinct' : (others.map (·.name)).Nodup := (perm.map _).nodup_iff.mp distinct
  apply sameAnswers_of_perm (keyedByName_ofClasses classes).keyed
  rw [classes_ofClasses distinct, classes_ofClasses distinct']
  exact perm.map _

end ObjectQuery.Schema

import Mathlib.Data.Set.Card
import Mathlib.Logic.Relation
import ObjectQuery.Proofs.Schema.Keys

/-!
Contract: the subclasses of a class are the classes that have it among their ancestors.

One walk goes up from a class to its parent, and ends after 64 classes; the other goes down, from
the names whose subclasses are still to be listed. Parents may run in a circle and may be missing.

Owns:
- `Schema.ancestorAt` and `Schema.lineage`, the walk up without its limit;
- `Schema.Searches`, the walk down without a number of rounds;
- that the walk down ends, and that both walks find the same pairs of classes.

Does not own: what a class inherits.
-/

namespace ObjectQuery.Schema

/-- A class has this parent. -/
def HasParent (schema : Schema) (child parent : String) : Prop :=
  ∃ c, schema.find? child = some c ∧ c.parent = some parent

/-- The class that so many steps from a class to its parent lead to. -/
def ancestorAt (schema : Schema) (key : String) : Nat → Option ClassDef
  | 0 => schema.find? key
  | steps + 1 => (schema.ancestorAt key steps).bind fun c => c.parent.bind schema.find?

/-- The classes that the walk from a class to its parents meets, the class included. -/
def lineage (schema : Schema) (key : String) : Set ClassDef :=
  {c | ∃ steps, schema.ancestorAt key steps = some c}

variable {schema : Schema} {key : String} {c : ClassDef}

/-! ## The walk up -/

/-- The walk goes on from a class that it has met in the same way whenever it meets it. -/
theorem ancestorAt_add {first second : Nat}
    (same : schema.ancestorAt key first = schema.ancestorAt key second)
    (steps : Nat) :
    schema.ancestorAt key (first + steps) = schema.ancestorAt key (second + steps) := by
  induction steps with
  | zero => exact same
  | succ steps inductionHypothesis =>
    rw [← Nat.add_assoc, ← Nat.add_assoc, ancestorAt, ancestorAt, inductionHypothesis]

/-- Without an end so far there was none before. -/
theorem isSome_ancestorAt_of_le {first second : Nat}
    (ordered : first ≤ second)
    (isSome : (schema.ancestorAt key second).isSome) :
    (schema.ancestorAt key first).isSome := by
  induction second with
  | zero =>
    obtain rfl := Nat.le_zero.mp ordered
    exact isSome
  | succ second inductionHypothesis =>
    by_cases here : first = second + 1
    · exact here ▸ isSome
    · apply inductionHypothesis (by omega)
      obtain ⟨_, reached⟩ := Option.isSome_iff_exists.mp isSome
      obtain ⟨_, before, -⟩ := Option.bind_eq_some_iff.mp reached
      exact Option.isSome_iff_exists.mpr ⟨_, before⟩

/-- On the shortest way to a class no class is met twice: what lies between would be a detour. -/
theorem injOn_ancestorAt {steps : Nat}
    (reached : schema.ancestorAt key steps = some c)
    (least : ∀ fewer < steps, schema.ancestorAt key fewer ≠ some c) :
    Set.InjOn (schema.ancestorAt key) (Finset.range (steps + 1)) := by
  have noRepetition (first second : Nat) (ordered : first < second) (inReach : second < steps + 1) :
      schema.ancestorAt key first ≠ schema.ancestorAt key second := by
    intro same
    have shortened := ancestorAt_add same (steps - second)
    rw [Nat.add_sub_cancel' (Nat.lt_succ_iff.mp inReach), reached] at shortened
    exact least _ (by omega) shortened
  intro first firstInReach second secondInReach same
  simp only [Finset.coe_range, Set.mem_Iio] at firstInReach secondInReach
  rcases Nat.lt_trichotomy first second with ordered | equal | ordered
  · exact absurd same (noRepetition first second ordered secondInReach)
  · exact equal
  · exact absurd same.symm (noRepetition second first ordered firstInReach)

/-- A walk that meets at most so many classes meets each of them in fewer steps. -/
theorem exists_steps_lt_of_mem_lineage {limit : Nat}
    (bounded : (schema.lineage key).encard ≤ limit)
    (member : c ∈ schema.lineage key) :
    ∃ steps < limit, schema.ancestorAt key steps = some c := by
  classical
  obtain ⟨steps, reached, least⟩ :
      ∃ steps, schema.ancestorAt key steps = some c ∧
        ∀ fewer < steps, schema.ancestorAt key fewer ≠ some c :=
    ⟨Nat.find member, Nat.find_spec member, fun _ => Nat.find_min member⟩
  refine ⟨steps, ?_, reached⟩
  have met : schema.ancestorAt key '' (Finset.range (steps + 1)) ⊆ some '' schema.lineage key := by
    rintro _ ⟨fewer, inReach, rfl⟩
    simp only [Finset.coe_range, Set.mem_Iio] at inReach
    have isSome := isSome_ancestorAt_of_le (Nat.lt_succ_iff.mp inReach)
      (Option.isSome_iff_exists.mpr ⟨c, reached⟩)
    obtain ⟨ancestor, isAncestor⟩ := Option.isSome_iff_exists.mp isSome
    exact ⟨ancestor, ⟨fewer, isAncestor⟩, isAncestor.symm⟩
  have counted := (Set.encard_le_encard met).trans
    ((Option.some_injective _).encard_image _ ▸ bounded)
  rw [(injOn_ancestorAt reached least).encard_image, Set.encard_coe_eq_coe_finsetCard,
    Finset.card_range] at counted
  exact Nat.cast_le.mp counted

/-- The first step is to the parent, and the others go on from there. -/
theorem ancestorAt_succ (found : schema.find? key = some c) (steps : Nat) :
    schema.ancestorAt key (steps + 1) = c.parent.bind (schema.ancestorAt · steps) := by
  induction steps with
  | zero =>
    rw [ancestorAt, ancestorAt, found]
    rfl
  | succ steps inductionHypothesis =>
    rw [ancestorAt, inductionHypothesis]
    cases c.parent <;> rfl

theorem ancestorAt_eq_none (missing : schema.find? key = none) (steps : Nat) :
    schema.ancestorAt key steps = none := by
  induction steps with
  | zero => exact missing
  | succ steps inductionHypothesis =>
    rw [ancestorAt, inductionHypothesis]
    rfl

theorem mem_ancestryUpTo_iff {limit : Nat} {start : Option String} :
    c ∈ schema.ancestryUpTo limit start ↔
      ∃ key ∈ start, ∃ steps < limit, schema.ancestorAt key steps = some c := by
  induction limit generalizing start with
  | zero => simp [ancestryUpTo]
  | succ limit inductionHypothesis =>
    cases start with
    | none => simp [ancestryUpTo]
    | some key =>
      simp only [ancestryUpTo, Option.mem_some_iff, exists_eq_left']
      cases found : schema.find? key with
      | none => simp [ancestorAt_eq_none found]
      | some first =>
        rw [List.mem_cons, inductionHypothesis]
        constructor
        · rintro (rfl | ⟨parent, isParent, steps, inLimit, reached⟩)
          · exact ⟨0, Nat.succ_pos limit, found⟩
          · refine ⟨steps + 1, Nat.succ_lt_succ inLimit, ?_⟩
            rw [ancestorAt_succ found, Option.mem_def.mp isParent]
            exact reached
        · rintro ⟨steps, inLimit, reached⟩
          cases steps with
          | zero => exact .inl (Option.some.inj (reached.symm.trans found))
          | succ steps =>
            rw [ancestorAt_succ found] at reached
            obtain ⟨parent, isParent, reached⟩ := Option.bind_eq_some_iff.mp reached
            exact .inr ⟨parent, isParent, steps, Nat.lt_of_succ_lt_succ inLimit, reached⟩

/-- Where the walk meets few enough classes, the ancestry is all of them. -/
theorem mem_ancestry_iff (bounded : (schema.lineage key).encard ≤ 64) :
    c ∈ schema.ancestry key ↔ c ∈ schema.lineage key := by
  rw [ancestry, maxDepth, mem_ancestryUpTo_iff]
  simp only [Option.mem_some_iff, exists_eq_left']
  constructor
  · rintro ⟨steps, -, reached⟩
    exact ⟨steps, reached⟩
  · exact exists_steps_lt_of_mem_lineage bounded

/-- The walk up goes along parents. -/
theorem mem_lineage_iff (keyed : schema.KeyedByName) :
    c ∈ schema.lineage key ↔
      schema.find? c.name = some c ∧ Relation.ReflTransGen schema.HasParent key c.name := by
  constructor
  · rintro ⟨steps, reached⟩
    induction steps generalizing c with
    | zero =>
      have named := keyed.name_eq reached
      exact ⟨named ▸ reached, named ▸ .refl⟩
    | succ steps inductionHypothesis =>
      obtain ⟨child, isChild, reached⟩ := Option.bind_eq_some_iff.mp reached
      obtain ⟨parent, isParent, found⟩ := Option.bind_eq_some_iff.mp reached
      obtain ⟨childFound, walk⟩ := inductionHypothesis isChild
      have named := keyed.name_eq found
      exact ⟨named ▸ found, walk.tail ⟨child, childFound, named ▸ isParent⟩⟩
  · rintro ⟨found, walk⟩
    generalize isName : c.name = name at found walk
    induction walk generalizing c with
    | refl => exact ⟨0, found⟩
    | tail _ step inductionHypothesis =>
      obtain ⟨child, childFound, isParent⟩ := step
      obtain ⟨steps, reached⟩ := inductionHypothesis (keyed.name_eq childFound) childFound
      refine ⟨steps + 1, ?_⟩
      rw [ancestorAt, reached, Option.bind_some, isParent]
      exact found

/-- Parents are classes of the schema, so a walk meets no more classes than there are. -/
theorem encard_lineage_le : (schema.lineage key).encard ≤ schema.classes.length := by
  classical
  have kept : schema.lineage key ⊆ (schema.classes.map (·.2)).toFinset := by
    rintro c ⟨steps, reached⟩
    obtain ⟨holder, found⟩ : ∃ holder, schema.find? holder = some c := by
      cases steps with
      | zero => exact ⟨key, reached⟩
      | succ steps =>
        obtain ⟨_, -, reached⟩ := Option.bind_eq_some_iff.mp reached
        obtain ⟨parent, -, found⟩ := Option.bind_eq_some_iff.mp reached
        exact ⟨parent, found⟩
    exact List.mem_toFinset.mpr (List.mem_map_of_mem (mem_classes_of_find? found))
  apply (Set.encard_le_encard kept).trans
  rw [Set.encard_coe_eq_coe_finsetCard]
  exact Nat.cast_le.mpr ((List.toFinset_card_le _).trans_eq (List.length_map _))

/-! ## One round of the walk down -/

/-- The names that a search has met: the one that it starts from and those of the classes found. -/
def metNames (start : String) (found : List ClassDef) : List String :=
  start :: found.map (·.name)

/-- These of the listed classes are the ones to add to those found. -/
structure Adds (start : String) (found listed added : List ClassDef) : Prop where
  subset : added ⊆ listed
  distinct : (metNames start (found ++ added)).Nodup
  covered : ∀ c ∈ listed, c.name ∈ metNames start (found ++ added)

theorem metNames_append (start : String) (found added : List ClassDef) :
    metNames start (found ++ added) = metNames start found ++ added.map (·.name) := by
  rw [metNames, List.map_append]
  rfl

theorem addNew_eq {start : String} {found : List ClassDef} (listed : List ClassDef)
    (distinct : (metNames start found).Nodup) :
    ∃ added, addNew start found listed = (found ++ added, added.map (·.name)) ∧
      Adds start found listed added := by
  induction listed generalizing found with
  | nil =>
    refine ⟨[], ?_, List.Subset.refl _, ?_, List.forall_mem_nil _⟩
    · rw [addNew, List.append_nil, List.map_nil]
    · rw [List.append_nil]
      exact distinct
  | cons c rest inductionHypothesis =>
    have isMet : (c.name = start ∨ found.any (·.name = c.name)) ↔
        c.name ∈ metNames start found := by
      simp [metNames]
    by_cases met : c.name ∈ metNames start found
    · obtain ⟨added, isSum, adds⟩ := inductionHypothesis distinct
      refine ⟨added, ?_, List.subset_cons_of_subset c adds.subset, adds.distinct, ?_⟩
      · rw [addNew, if_pos (isMet.mpr met)]
        exact isSum
      · refine List.forall_mem_cons.mpr ⟨?_, adds.covered⟩
        rw [metNames_append]
        exact List.mem_append_left _ met
    · have grown : (metNames start (found ++ [c])).Nodup := by
        rw [metNames_append]
        exact distinct.append (List.nodup_singleton _) (List.disjoint_singleton.mpr met)
      obtain ⟨added, isSum, adds⟩ := inductionHypothesis grown
      have regroup : found ++ [c] ++ added = found ++ c :: added := List.append_cons .. |>.symm
      refine ⟨c :: added, ?_, List.cons_subset_cons c adds.subset, ?_, ?_⟩
      · rw [addNew, if_neg (mt isMet.mp met), isSum, regroup]
        rfl
      · rw [← regroup]
        exact adds.distinct
      · refine List.forall_mem_cons.mpr ⟨?_, regroup ▸ adds.covered⟩
        rw [metNames_append]
        exact List.mem_append_right _ List.mem_cons_self

/-- The direct subclasses are the classes with this parent. -/
theorem mem_directSubclasses_iff (keyed : schema.KeyedByName) :
    c ∈ schema.directSubclasses key ↔
      schema.find? c.name = some c ∧ c.parent = some key := by
  simp only [directSubclasses, List.mem_map, List.mem_mergeSort, List.mem_filter,
    decide_eq_true_eq, Prod.exists, exists_eq_right]
  constructor
  · rintro ⟨holder, member, isParent⟩
    exact ⟨keyed.find?_name member, isParent⟩
  · rintro ⟨found, isParent⟩
    exact ⟨c.name, mem_classes_of_find? found, isParent⟩

/-! ## The walk down -/

/-- The search, with the classes found and the names whose subclasses are still to be listed, ends
with this result. -/
inductive Searches (schema : Schema) (start : String) :
    List ClassDef → List String → List ClassDef → Prop
  | done
      (found : List ClassDef) :
      Searches schema start found [] found
  | round
      {found all : List ClassDef}
      {name : String}
      {pending fresh : List String}
      {result : List ClassDef}
      (isSum : addNew start found (schema.directSubclasses name) = (all, fresh))
      (rest : Searches schema start all (fresh.reverse ++ pending) result) :
      Searches schema start found (name :: pending) result

/-- What holds whenever a search looks at its next name: it has met no name twice, all it has found
is below the start, and a name that it has met and that is no longer pending has no subclass that is
not met. -/
structure Searching
    (schema : Schema)
    (start : String)
    (found : List ClassDef)
    (pending : List String) : Prop where
  distinct : (metNames start found).Nodup
  kept : ∀ c ∈ found, schema.find? c.name = some c
  below : ∀ name ∈ metNames start found, Relation.ReflTransGen schema.HasParent name start
  pendingMet : pending ⊆ metNames start found
  explored : ∀ name ∈ metNames start found, name ∈ pending ∨
    ∀ c ∈ schema.directSubclasses name, c.name ∈ metNames start found

variable {start name : String} {found result : List ClassDef} {pending : List String}

/-- A search ends in one way. -/
theorem Searches.unique {other : List ClassDef}
    (ends : schema.Searches start found pending result)
    (endsToo : schema.Searches start found pending other) : result = other := by
  induction ends with
  | done =>
    cases endsToo
    rfl
  | round isSum _ inductionHypothesis =>
    cases endsToo with
    | round isSumToo rest =>
      obtain ⟨rfl, rfl⟩ := Prod.mk.inj (isSum.symm.trans isSumToo)
      exact inductionHypothesis rest

theorem searching_start (schema : Schema) (start : String) :
    schema.Searching start [] [start] where
  distinct := List.nodup_singleton start
  kept := List.forall_mem_nil _
  below := List.forall_mem_singleton.mpr .refl
  pendingMet := List.Subset.refl _
  explored := fun _ met => .inl met

/-- One round keeps the invariant. -/
theorem Searching.round {added : List ClassDef}
    (keyed : schema.KeyedByName)
    (searching : schema.Searching start found (name :: pending))
    (adds : Adds start found (schema.directSubclasses name) added) :
    schema.Searching start (found ++ added) ((added.map (·.name)).reverse ++ pending) where
  distinct := adds.distinct
  kept := by
    refine List.forall_mem_append.mpr ⟨searching.kept, ?_⟩
    intro c isNew
    exact ((mem_directSubclasses_iff keyed).mp (adds.subset isNew)).1
  below := by
    rw [metNames_append]
    refine List.forall_mem_append.mpr ⟨searching.below, List.forall_mem_map.mpr ?_⟩
    intro c isNew
    obtain ⟨isClass, isParent⟩ := (mem_directSubclasses_iff keyed).mp (adds.subset isNew)
    have nameBelow := searching.below name (searching.pendingMet List.mem_cons_self)
    exact nameBelow.head ⟨c, isClass, isParent⟩
  pendingMet := by
    rw [metNames_append]
    refine List.append_subset.mpr ⟨?_, ?_⟩
    · exact fun other isNew => List.mem_append_right _ (List.mem_reverse.mp isNew)
    · exact fun other waits =>
        List.mem_append_left _ (searching.pendingMet (List.mem_cons_of_mem name waits))
  explored := by
    intro other met
    rw [metNames_append] at met
    rcases List.mem_append.mp met with metBefore | isNew
    · rcases searching.explored other metBefore with waits | done
      · rcases List.mem_cons.mp waits with rfl | waits
        · exact .inr adds.covered
        · exact .inl (List.mem_append_right _ waits)
      · rw [metNames_append]
        exact .inr fun c isSubclass => List.mem_append_left _ (done c isSubclass)
    · exact .inl (List.mem_append_left _ (List.mem_reverse.mpr isNew))

/-- The search finds each class of the schema at most once. -/
theorem Searching.length_le
    (searching : schema.Searching start found pending) :
    found.length ≤ schema.classes.length := by
  have distinct : (found.map (·.name)).Nodup := (List.nodup_cons.mp searching.distinct).2
  have kept : found.map (·.name) ⊆ schema.classes.keys :=
    List.forall_mem_map.mpr fun c member =>
      Named.mem_keys_of_mem (mem_classes_of_find? (searching.kept c member))
  simpa [Named.keys] using (distinct.subperm kept).length_le

/-- Each round takes a name off, and each class found adds one, so that the rounds suffice. -/
theorem searches_subclassesFrom {rounds : Nat}
    (keyed : schema.KeyedByName)
    (searching : schema.Searching start found pending)
    (enough : pending.length + schema.classes.length ≤ rounds + found.length) :
    schema.Searches start found pending (schema.subclassesFrom start rounds found pending) := by
  induction rounds generalizing found pending with
  | zero =>
    have bounded := searching.length_le
    obtain rfl : pending = [] := List.length_eq_zero_iff.mp (by omega)
    exact .done found
  | succ rounds inductionHypothesis =>
    cases pending with
    | nil => exact .done found
    | cons name pending =>
      obtain ⟨added, isSum, adds⟩ :=
        addNew_eq (schema.directSubclasses name) searching.distinct
      rw [subclassesFrom, isSum]
      apply Searches.round isSum
      apply inductionHypothesis (searching.round keyed adds)
      simp only [List.length_append, List.length_reverse, List.length_map, List.length_cons]
        at enough ⊢
      omega

theorem searches_subclasses (keyed : schema.KeyedByName) (start : String) :
    schema.Searches start [] [start] (schema.subclasses start) := by
  apply searches_subclassesFrom keyed (searching_start schema start)
  rw [List.length_singleton, List.length_nil]
  omega

/-- The invariant holds to the end. -/
theorem Searches.searching
    (keyed : schema.KeyedByName)
    (ends : schema.Searches start found pending result)
    (searching : schema.Searching start found pending) : schema.Searching start result [] := by
  induction ends with
  | done => exact searching
  | round isSum _ inductionHypothesis =>
    obtain ⟨added, isSumToo, adds⟩ := addNew_eq _ searching.distinct
    obtain ⟨rfl, rfl⟩ := Prod.mk.inj (isSum.symm.trans isSumToo)
    exact inductionHypothesis (searching.round keyed adds)

/-- At the end all that is below the start is met. -/
theorem Searching.met_of_below
    (keyed : schema.KeyedByName)
    (searching : schema.Searching start found [])
    (isBelow : Relation.ReflTransGen schema.HasParent name start) :
    name ∈ metNames start found := by
  induction isBelow using Relation.ReflTransGen.head_induction_on with
  | refl => exact List.mem_cons_self
  | head step _ met =>
    obtain ⟨c, isClass, isParent⟩ := step
    have named := keyed.name_eq isClass
    have closed := (searching.explored _ met).resolve_left List.not_mem_nil
    rw [← named]
    exact closed c ((mem_directSubclasses_iff keyed).mpr ⟨named ▸ isClass, isParent⟩)

theorem searching_subclasses (keyed : schema.KeyedByName) (start : String) :
    schema.Searching start (schema.subclasses start) [] :=
  (searches_subclasses keyed start).searching keyed (searching_start schema start)

/-- The subclasses are the other classes from which parents lead to the class. -/
theorem mem_subclasses_iff (keyed : schema.KeyedByName) :
    c ∈ schema.subclasses start ↔
      schema.find? c.name = some c ∧ c.name ≠ start ∧
        Relation.ReflTransGen schema.HasParent c.name start := by
  have searching := searching_subclasses keyed start
  constructor
  · intro member
    have inNames : c.name ∈ (schema.subclasses start).map (·.name) := List.mem_map_of_mem member
    refine ⟨searching.kept c member, ?_, searching.below _ (List.mem_cons_of_mem _ inNames)⟩
    rintro rfl
    exact (List.nodup_cons.mp searching.distinct).1 inNames
  · rintro ⟨isClass, other, isBelow⟩
    have met := searching.met_of_below keyed isBelow
    obtain ⟨found, member, sameName⟩ :=
      List.mem_map.mp ((List.mem_cons.mp met).resolve_left other)
    have isFound := searching.kept found member
    rw [sameName, isClass] at isFound
    exact Option.some.inj isFound ▸ member

/-! ## Both walks -/

/-- The subclasses are listed once each and without the class itself, by a search that ends. Where
the walk up from each class meets at most as many classes as an ancestry may have, one class is
among the subclasses of another exactly when the other is among its ancestors. -/
theorem subclasses_converse_ancestry (keyed : schema.KeyedByName) :
    (∀ start,
      (∀ result, schema.Searches start [] [start] result ↔ result = schema.subclasses start) ∧
        ((schema.subclasses start).map (·.name)).Nodup ∧
        ∀ c ∈ schema.subclasses start, c.name ≠ start) ∧
      ((∀ key, (schema.lineage key).encard ≤ 64) →
        ∀ c d,
          schema.find? c.name = some c → schema.find? d.name = some d → c ≠ d →
            (d ∈ schema.subclasses c.name ↔ c ∈ schema.ancestry d.name)) := by
  refine ⟨fun start => ⟨fun result => ⟨?_, ?_⟩, ?_, ?_⟩, ?_⟩
  · exact fun ends => ends.unique (searches_subclasses keyed start)
  · rintro rfl
    exact searches_subclasses keyed start
  · exact (List.nodup_cons.mp (searching_subclasses keyed start).distinct).2
  · exact fun c member => ((mem_subclasses_iff keyed).mp member).2.1
  · intro bounded c d isClass isClassToo distinct
    have otherName : d.name ≠ c.name := by
      intro same
      rw [same, isClass] at isClassToo
      exact distinct (Option.some.inj isClassToo)
    rw [mem_subclasses_iff keyed, mem_ancestry_iff (bounded d.name), mem_lineage_iff keyed]
    constructor
    · rintro ⟨-, -, isBelow⟩
      exact ⟨isClass, isBelow⟩
    · rintro ⟨-, isBelow⟩
      exact ⟨isClassToo, otherName, isBelow⟩

/-- Two classes that are each other's parents, and a guest whose parent is missing. -/
theorem subclasses_converse_ancestry_in_circle :
    ∃ schema : Schema,
      schema.KeyedByName ∧
        (∀ key, (schema.lineage key).encard ≤ 64) ∧
        schema.find? "Guest" = some (.derived "Guest" "Nobody") ∧
        .derived "Person" "Member" ∈ schema.subclasses "Member" ∧
        .derived "Member" "Person" ∈ schema.subclasses "Person" := by
  let person : ClassDef := .derived "Person" "Member"
  let member : ClassDef := .derived "Member" "Person"
  let circle : Schema := ofClasses [person, member, .derived "Guest" "Nobody"]
  have bounded (key : String) : (circle.lineage key).encard ≤ 64 :=
    encard_lineage_le.trans (Nat.cast_le.mpr (by decide : circle.classes.length ≤ 64))
  have distinct : person ≠ member := fun same =>
    absurd (congrArg ClassDef.name same) (by decide)
  have converse := (subclasses_converse_ancestry (keyedByName_ofClasses _)).2 bounded
  refine ⟨circle, keyedByName_ofClasses _, bounded, rfl, ?_, ?_⟩
  · apply (converse member person rfl rfl distinct.symm).mpr
    exact List.mem_cons_of_mem _ List.mem_cons_self
  · apply (converse person member rfl rfl distinct).mpr
    exact List.mem_cons_of_mem _ List.mem_cons_self

end ObjectQuery.Schema

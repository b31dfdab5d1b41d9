import ObjectQuery.Schema.Involvement
import ObjectQuery.Proofs.Sql.Openings

/-!
Contract: scopes of tables and frames of from items mean the same by a name.

A frame has the from items of its level and a scope has tables, among them tables of pairs, which go
by no name. The scope of a collection has its root behind such a table. The outermost frame has no
scope: it holds the root class alone.

Owns: `Scope.Fits` and `Scopes.Match`, that names start at the same class in both, and the frames of
scopes that are set up.

Does not own: which classes are read.
-/

namespace ObjectQuery.Sql

/-- The from item that an entry of a class stands for. -/
def Entry.item? (entry : Entry) : Option FromItem :=
  entry.className.map fun className => ⟨className, entry.label⟩

/-- The from item at a place. -/
def Scope.itemAt? (scope : Scope) (place : Nat) : Option FromItem :=
  scope.entries[place]?.bind Entry.item?

/-- A scope and a frame stand for one level: the entries of classes are the from items, bare names
belong to the root class, and tables of pairs have no label. -/
structure Scope.Fits (scope : Scope) (frame : Frame) : Prop where
  items_eq : scope.entries.filterMap Entry.item? = frame.entries
  root_eq : scope.rootClass? = some frame.root
  pairs_unlabelled : ∀ entry ∈ scope.entries, entry.className = none → entry.label = none

/-- The scopes are those of the frames, of which the outermost one has no scope. -/
inductive Scopes.Match : Scopes → List Frame → Prop
  | outermost {root : String} : Match [] [⟨root, []⟩]
  | level {scope : Scope} {scopes : Scopes} {frame : Frame} {frames : List Frame}
      (fits : scope.Fits frame)
      (others : scopes.Match frames) : Match (scope :: scopes) (frame :: frames)

variable {schema : Schema}

/-! ## Names -/

namespace Scope

variable {scope : Scope} {frame : Frame} (fits : scope.Fits frame)

include fits

/-- The first entry that meets a condition is the first from item that meets it. -/
theorem Fits.entryWhere?_cases
    {meets : Entry → Bool}
    {wanted : FromItem → Bool}
    (same : ∀ entry ∈ scope.entries, meets entry = entry.item?.any wanted) :
    (scope.entryWhere? meets = none ∧ frame.entries.find? wanted = none) ∨
      ∃ place item, scope.entryWhere? meets = some place ∧ scope.itemAt? place = some item ∧
        frame.entries.find? wanted = some item := by
  rw [← fits.items_eq]
  cases found : scope.entryWhere? meets with
  | none =>
    refine .inl ⟨rfl, List.find?_eq_none.mpr fun item member isWanted => ?_⟩
    obtain ⟨entry, isEntry, isItem⟩ := List.mem_filterMap.mp member
    have unmet := List.findIdx?_eq_none_iff.mp found entry isEntry
    simp [same entry isEntry, isItem, isWanted] at unmet
  | some place =>
    obtain ⟨inside, isMet, first⟩ := List.findIdx?_eq_some_iff_getElem.mp found
    rw [same _ (List.getElem_mem inside)] at isMet
    obtain ⟨item, isItem⟩ := Option.isSome_iff_exists.mp (Option.isSome_of_any isMet)
    have foundItem :
        scope.entries.find? (fun entry => entry.item?.any wanted) = some scope.entries[place] := by
      refine List.find?_eq_some_iff_getElem.mpr
        ⟨isMet, place, inside, rfl, fun earlier before => ?_⟩
      rw [← same _ (List.getElem_mem _)]
      simpa using first earlier before
    refine .inr ⟨place, item, rfl, ?_, ?_⟩
    · rw [itemAt?, List.getElem?_eq_getElem inside]
      exact isItem
    · rw [List.find?_filterMap, foundItem]
      exact isItem

theorem Fits.labelled?_cases (name : String) :
    (scope.labelled? name = none ∧ frame.labelled? name = none) ∨
      ∃ place item, scope.labelled? name = some place ∧ scope.itemAt? place = some item ∧
        frame.labelled? name = some item := by
  refine fits.entryWhere?_cases fun entry _ => ?_
  cases hasClass : entry.className <;> simp [Entry.item?, hasClass, beq_eq_decide]

theorem Fits.named?_cases (name : String) :
    (scope.named? name = none ∧ frame.named? name = none) ∨
      ∃ place item, scope.named? name = some place ∧ scope.itemAt? place = some item ∧
        frame.named? name = some item := by
  have byLabel := @Fits.entryWhere?_cases scope frame fits (·.label == some name)
    (·.label = some name) fun entry member => by
      cases hasClass : entry.className with
      | none => simp [Entry.item?, hasClass, fits.pairs_unlabelled entry member hasClass]
      | some className => simp [Entry.item?, hasClass, beq_eq_decide]
  have byClass := @Fits.entryWhere?_cases scope frame fits
    (fun entry => entry.label.isNone && entry.className == some name)
    (fun item => item.label = none ∧ item.className = name) fun entry _ => by
      cases hasClass : entry.className <;> cases hasLabel : entry.label <;>
        simp [Entry.item?, hasClass, hasLabel, beq_eq_decide]
  rw [named?, Frame.named?, Frame.labelled?]
  rcases byLabel with ⟨noPlace, noItem⟩ | ⟨place, item, isPlace, atPlace, isItem⟩
  · rw [noPlace, noItem]
    simpa using byClass
  · rw [isPlace, isItem]
    exact .inr ⟨place, item, rfl, atPlace, rfl⟩

theorem Fits.grows {later : Scope} (grows : scope.Grows later) : later.Fits frame where
  items_eq := grows.entries_eq ▸ fits.items_eq
  root_eq := by
    rw [rootClass?, grows.entries_eq, grows.root_eq]
    exact fits.root_eq
  pairs_unlabelled := grows.entries_eq ▸ fits.pairs_unlabelled

theorem Fits.itemAt?_root :
    ∃ item, scope.itemAt? scope.root = some item ∧ item.className = frame.root := by
  obtain ⟨entry, found, ofClass⟩ := Option.bind_eq_some_iff.mp fits.root_eq
  exact ⟨⟨frame.root, entry.label⟩, by simp [itemAt?, found, Entry.item?, ofClass], rfl⟩

end Scope

namespace Scopes

variable {scopes : Scopes} {frames : List Frame}

/-- The place of a name in the enclosing levels, and the from item there. -/
theorem Match.enclosing?_cases (matching : scopes.Match frames) (name : String) :
    (enclosing? name scopes = none ∧ frames.findSome? (·.named? name) = none) ∨
      ∃ level place item, enclosing? name scopes = some (level, place) ∧
        scopes[level]?.bind (·.itemAt? place) = some item ∧
          frames.findSome? (·.named? name) = some item := by
  induction matching with
  | outermost => exact .inl ⟨rfl, rfl⟩
  | @level scope scopes frame frames fits _ inductionHypothesis =>
    rw [enclosing?, List.findSome?_cons]
    rcases fits.named?_cases name with ⟨noPlace, noItem⟩ | ⟨place, item, isPlace, atPlace, isItem⟩
    · rw [noPlace, noItem]
      rcases inductionHypothesis with ⟨none, none'⟩ | ⟨level, place, item, found, atPlace, isItem⟩
      · exact .inl ⟨by simp [none], none'⟩
      · exact .inr ⟨level + 1, place, item, by simp [found], atPlace, isItem⟩
    · have ofClass : ((scope.entries[place]?).bind (·.className)).isSome = true := by
        obtain ⟨entry, isEntry, isItem⟩ := Option.bind_eq_some_iff.mp atPlace
        obtain ⟨className, hasClass, -⟩ := Option.map_eq_some_iff.mp isItem
        simp [isEntry, hasClass]
      rw [isPlace, isItem]
      exact .inr ⟨0, place, item, by simp [Option.filter, ofClass], atPlace, rfl⟩

/-- A chain of names starts at the entry of the from item from whose class it starts. -/
theorem Match.locate_eq
    (matching : scopes.Match frames)
    {names : List String}
    {start : Start}
    (located : locateRow schema scopes names = .ok start) :
    ∃ item, scopes[start.level]?.bind (·.itemAt? start.entry) = some item ∧
      schema.locate frames names = .ok (item.className, start.names) := by
  have enclosing := matching.enclosing?_cases
  cases matching with
  | outermost => cases located
  | @level scope scopes frame frames fits _ =>
    obtain ⟨rootItem, atRoot, ofRoot⟩ := fits.itemAt?_root
    cases names with
    | nil =>
      obtain rfl := Except.ok.inj located
      exact ⟨rootItem, atRoot, by rw [Schema.locate, ofRoot]⟩
    | cons first rest =>
      rw [locateRow] at located
      rw [Schema.locate]
      rcases fits.labelled?_cases first with
        ⟨noPlace, noItem⟩ | ⟨place, item, isPlace, atPlace, isItem⟩
      · cases isField : (schema.field? frame.root first).isSome with
        | true =>
          simp only [noPlace, fits.root_eq, isField, if_true, Except.ok.injEq] at located
          subst located
          exact ⟨rootItem, atRoot, by simp [noItem, ofRoot]⟩
        | false =>
          simp only [noPlace, fits.root_eq, isField, Bool.false_eq_true, if_false] at located
          rcases enclosing first with ⟨none, noItem'⟩ | ⟨level, place, item, found, atPlace, isItem⟩
          · simp only [none, Except.ok.injEq] at located
            subst located
            exact ⟨rootItem, atRoot, by simp only [noItem, noItem', ofRoot]; rfl⟩
          · simp only [found, Except.ok.injEq] at located
            subst located
            exact ⟨item, atPlace, by simp only [noItem, isItem]; rfl⟩
      · simp only [isPlace, Except.ok.injEq] at located
        subst located
        exact ⟨item, atPlace, by simp only [isItem]⟩

/-- Added joins change no name. -/
theorem Match.grow {later : Scopes} (matching : scopes.Match frames) (grow : scopes.Grow later) :
    later.Match frames := by
  induction matching generalizing later with
  | outermost =>
    cases grow
    exact .outermost
  | level fits _ inductionHypothesis =>
    cases grow with
    | cons grows others => exact .level (fits.grows grows) (inductionHypothesis others)

end Scopes

/-- A look-up goes along the chain that the analysis goes along. -/
theorem Lookup.classesOnWay_eq
    {scopes : Scopes}
    {frames : List Frame}
    {names onWay : List String}
    {last : String}
    (found : Lookup schema scopes names)
    (matching : scopes.Match frames)
    (read : schema.classesOnWay frames names = .ok (last, onWay)) :
    last = Schema.endOf found.root found.steps ∧
      onWay = found.root :: found.steps.map (·.target) := by
  obtain ⟨item, atStart, located⟩ := matching.locate_eq found.located
  have ofRoot : item.className = found.root := by
    simp only [found.atLevel, Option.bind_some, Scope.itemAt?, found.atPlace, Entry.item?,
      found.ofClass, Option.map_some, Option.some.injEq] at atStart
    rw [← atStart]
  rw [ofRoot] at located
  obtain ⟨⟨start, rest⟩, located', read⟩ := bind_eq_ok.mp read
  obtain ⟨rfl, rfl⟩ := Prod.mk.inj (Except.ok.inj (located.symm.trans located'))
  obtain ⟨_, -, read⟩ := bind_eq_ok.mp read
  obtain ⟨steps, resolved, finished⟩ := bind_eq_ok.mp read
  obtain rfl := Except.ok.inj (found.resolved.symm.trans resolved)
  obtain ⟨rfl, rfl⟩ := Prod.mk.inj (Except.ok.inj finished)
  exact ⟨rfl, rfl⟩

/-! ## Levels that are opened -/

/-- From items become entries of their classes and labels. -/
theorem items_of_addSources
    {items : List FromItem}
    {start scope : Scope}
    {kept : List Condition}
    (added : addSources schema start items = .ok (scope, kept)) :
    scope.entries.map Entry.item? = start.entries.map Entry.item? ++ items.map some ∧
      scope.root = start.root := by
  induction items generalizing start kept with
  | nil =>
    obtain ⟨rfl, rfl⟩ := Prod.mk.inj (Except.ok.inj added)
    exact ⟨by simp, rfl⟩
  | cons item rest inductionHypothesis =>
    obtain ⟨_, -, added⟩ := bind_eq_ok.mp added
    obtain ⟨table, -, added⟩ := bind_eq_ok.mp added
    obtain ⟨_, -, added⟩ := bind_eq_ok.mp added
    obtain ⟨⟨_, others⟩, addedRest, finished⟩ := bind_eq_ok.mp added
    obtain ⟨rfl, rfl⟩ := Prod.mk.inj (Except.ok.inj finished)
    obtain ⟨entries, root⟩ := inductionHypothesis addedRest
    exact ⟨by simp [entries, Scope.addEntry, Entry.item?], root⟩

/-- The scope of a query fits the frame of its from list. -/
theorem fits_of_addSources
    {depth : Nat}
    {first : FromItem}
    {rest : List FromItem}
    {scope : Scope}
    {kept : List Condition}
    (added : addSources schema (.empty depth) (first :: rest) = .ok (scope, kept)) :
    scope.Fits ⟨first.className, first :: rest⟩ := by
  obtain ⟨entries, root⟩ := items_of_addSources added
  have asItems : scope.entries.map Entry.item? = (first :: rest).map some := entries
  refine ⟨?_, ?_, fun entry member noClass => ?_⟩
  · have same := congrArg (List.filterMap id) asItems
    rw [List.filterMap_map, List.filterMap_map] at same
    exact same.trans List.filterMap_some
  · have atFirst := congrArg (·[0]?) asItems
    simp only [List.getElem?_map, List.getElem?_cons_zero, Option.map_some] at atFirst
    obtain ⟨entry, isFirst, isItem⟩ := Option.map_eq_some_iff.mp atFirst
    obtain ⟨className, ofClass, rfl⟩ := Option.map_eq_some_iff.mp isItem
    rw [Scope.rootClass?, root]
    exact Option.bind_eq_some_iff.mpr ⟨entry, isFirst, ofClass⟩
  · have isItem : entry.item? ∈ (first :: rest).map some :=
      asItems ▸ List.mem_map_of_mem member
    simp [Entry.item?, noClass] at isItem

/-- The classes of the entries of a collection are that of the elements, and where something is said
about these, its scope fits a frame of them alone. -/
theorem fits_of_membership
    {depth : Nat}
    {collection : CollectionDef}
    {key : ColumnRef}
    {elementsMatter : Bool}
    {setup : Membership}
    (opened : membership schema depth collection key elementsMatter = .ok setup) :
    (∀ entry ∈ setup.scope.entries, ∀ className ∈ entry.className,
        className = collection.element) ∧
      (elementsMatter = true →
        setup.scope.Fits ⟨collection.element, [⟨collection.element, none⟩]⟩) := by
  rw [membership] at opened
  split at opened
  · next element _ storage =>
    obtain ⟨table, -, opened⟩ := bind_eq_ok.mp opened
    obtain ⟨foreign, -, finished⟩ := bind_eq_ok.mp opened
    obtain rfl := Except.ok.inj finished
    have isElement : collection.element = element := by simp [CollectionDef.element, storage]
    refine ⟨by simp [Scope.addEntry, Scope.empty, isElement], fun _ => ⟨?_, ?_, ?_⟩⟩ <;>
      simp [Scope.addEntry, Scope.empty, Scope.rootClass?, Entry.item?, isElement]
  · next element _ _ _ storage =>
    have isElement : collection.element = element := by simp [CollectionDef.element, storage]
    split at opened
    · obtain ⟨table, -, opened⟩ := bind_eq_ok.mp opened
      obtain ⟨_, -, finished⟩ := bind_eq_ok.mp opened
      obtain rfl := Except.ok.inj finished
      refine ⟨by simp [Scope.addEntry, Scope.empty, isElement], fun _ => ⟨?_, ?_, ?_⟩⟩
      · simp [Scope.addEntry, Scope.empty, Entry.item?, isElement, List.filterMap_cons]
      · simp [Scope.addEntry, Scope.empty, Scope.rootClass?, isElement]
      · simp [Scope.addEntry, Scope.empty]
    · next unimportant =>
      obtain rfl := Except.ok.inj opened
      exact ⟨by simp [Scope.addEntry, Scope.empty], fun matter => absurd matter unimportant⟩

end ObjectQuery.Sql

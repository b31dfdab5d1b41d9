import ObjectQuery.Proofs.Sql.Labels
import ObjectQuery.Sql.Statement

/-!
Contract: computations that do the same in scopes with other labels.

Two computations run side by side, one in the scopes of a query and one in the scopes with other
labels. Both fail, for reasons of their own, or both have the same result and leave the same scopes,
labels apart. A chain of names that starts at no table and no field fails in both.

Owns:
- `Matched` and `Mirrored`, and the laws by which such computations are put together;
- that rows and collections are looked up so, and that the tables of a level are set up so.

Does not own: expressions.
-/

namespace ObjectQuery.Sql

variable {schema : Schema} {relabelling : Relabelling schema}

/-! ## Runs side by side -/

/-- Two outcomes are failures both, or results that belong together. -/
inductive Matched {α β : Type} (related : α → β → Prop) : Except Error α → Except Error β → Prop
  | failures {error error' : Error} : Matched related (.error error) (.error error')
  | results {value : α} {value' : β} (same : related value value') :
      Matched related (.ok value) (.ok value')

/-- A computation does the same in scopes as another one in the scopes with other labels. -/
def Mirrored {α : Type} (relabelling : Relabelling schema) (first second : Scoped α)
    (scopes : Scopes) : Prop :=
  Matched
    (fun before after => after = (before.1, Scopes.relabel relabelling.change before.2) ∧
      Scopes.Uses relabelling before.2)
    (first.run scopes) (second.run (scopes.relabel relabelling.change))

variable {α β : Type} {scopes : Scopes}

namespace Matched

theorem refl (outcome : Except Error α) : Matched Eq outcome outcome := by
  cases outcome with
  | error error => exact .failures
  | ok value => exact .results rfl

theorem bind {α' β' : Type} {first : Except Error α} {second : Except Error α'}
    {next : α → Except Error β} {next' : α' → Except Error β'}
    {related : α → α' → Prop} {related' : β → β' → Prop}
    (ofFirst : Matched related first second)
    (ofNext : ∀ value value', related value value' → Matched related' (next value) (next' value')) :
    Matched related' (first >>= next) (second >>= next') := by
  cases ofFirst with
  | failures => exact .failures
  | results same => exact ofNext _ _ same

/-- A step that is the same in both. -/
theorem bind_same {γ : Type} {first : Except Error α} {next : α → Except Error β}
    {next' : α → Except Error γ} {related : β → γ → Prop}
    (ofNext : ∀ value, first = .ok value → Matched related (next value) (next' value)) :
    Matched related (first >>= next) (first >>= next') := by
  cases first with
  | error error => exact .failures
  | ok value => exact ofNext value rfl

theorem ite {condition : Prop} [Decidable condition] {first first' : Except Error α}
    {second second' : Except Error β} {related : α → β → Prop}
    (ofThen : Matched related first second)
    (ofElse : Matched related first' second') :
    Matched related (if condition then first else first')
      (if condition then second else second') := by
  split
  · exact ofThen
  · exact ofElse

/-- A result of one is the result of the other. -/
theorem eq_ok_iff {first second : Except Error α} {value : α} (matched : Matched Eq first second) :
    first = .ok value ↔ second = .ok value := by
  cases matched with
  | failures => simp
  | results same => rw [same]

end Matched

namespace Mirrored

theorem pure (uses : scopes.Uses relabelling) (value : α) :
    Mirrored relabelling (Pure.pure value) (Pure.pure value) scopes :=
  .results ⟨rfl, uses⟩

theorem throw (error error' : Error) :
    Mirrored relabelling (MonadExcept.throw error : Scoped α) (MonadExcept.throw error') scopes :=
  .failures

theorem bind {first second : Scoped α} {next next' : α → Scoped β}
    (ofFirst : Mirrored relabelling first second scopes)
    (ofNext : ∀ value (later : Scopes), later.Uses relabelling →
      Mirrored relabelling (next value) (next' value) later) :
    Mirrored relabelling (first >>= next) (second >>= next') scopes := by
  simp only [Mirrored, StateT.run_bind]
  apply Matched.bind ofFirst
  rintro ⟨value, later⟩ _ ⟨rfl, uses⟩
  exact ofNext value later uses

theorem lift_bind {γ : Type} {step : Except Error α} {step' : Except Error γ}
    {next : α → Scoped β} {next' : γ → Scoped β} {related : α → γ → Prop}
    (ofStep : Matched related step step')
    (ofNext : ∀ value value', related value value' →
      Mirrored relabelling (next value) (next' value') scopes) :
    Mirrored relabelling (liftM step >>= next) (liftM step' >>= next') scopes := by
  cases ofStep with
  | failures => exact .failures
  | results same => exact ofNext _ _ same

/-- A step that has nothing to do with the scopes. -/
theorem lift_bind_same {step : Except Error α} {next next' : α → Scoped β}
    (ofNext : ∀ value, step = .ok value → Mirrored relabelling (next value) (next' value) scopes) :
    Mirrored relabelling (liftM step >>= next) (liftM step >>= next') scopes := by
  cases step with
  | error error => exact .failures
  | ok value => exact ofNext value rfl

theorem get_bind {next next' : Scopes → Scoped β}
    (ofNext : Mirrored relabelling (next scopes) (next' (scopes.relabel relabelling.change)) scopes) :
    Mirrored relabelling (get >>= next) (get >>= next') scopes :=
  ofNext

theorem modify {update : Scopes → Scopes}
    (same : update (scopes.relabel relabelling.change) =
      (update scopes).relabel relabelling.change)
    (uses : (update scopes).Uses relabelling) :
    Mirrored relabelling (modify update) (modify update) scopes :=
  .results ⟨Prod.ext rfl same, uses⟩

/-- A run with one more scope, which is handed back with what it has become. -/
theorem within_bind {scope scope' : Scope} {body body' : Scoped α}
    {next next' : Scope × α → Scoped β}
    (same : scope.relabel relabelling.change = scope')
    (ofBody : Mirrored relabelling body body' (scope :: scopes))
    (ofNext : ∀ inner value (later : Scopes), later.Uses relabelling →
      Mirrored relabelling (next (inner, value)) (next' (inner.relabel relabelling.change, value))
        later) :
    Mirrored relabelling (within scope body >>= next)
      (within scope' body' >>= next') scopes := by
  subst same
  simp only [Mirrored, within, StateT.run_bind, bind_assoc, StateT.run_modify, pure_eq_ok, ok_bind]
  apply Matched.bind ofBody
  rintro ⟨value, later⟩ _ ⟨rfl, uses⟩
  cases later with
  | nil => exact .failures
  | cons inner outer => exact ofNext inner value outer (List.forall_mem_cons.mp uses).2

end Mirrored

/-! ## Rows -/

/-- A chain whose first name is no field leads nowhere, whatever that name is. -/
theorem matched_resolveReferences {names : List String} (root : String)
    (inUse : ∀ first ∈ names.head?, first ∈ relabelling.used) :
    Matched Eq (schema.resolveReferences root names)
      (schema.resolveReferences root (changeFirst relabelling.change names)) := by
  cases names with
  | nil => exact .refl _
  | cons first rest =>
    have sameField := relabelling.field?_change root (inUse first rfl)
    rw [changeFirst]
    cases found : schema.field? root first with
    | some field =>
      rw [relabelling.keeps first (Schema.field_mem_spokenNames found)]
      exact .refl _
    | none =>
      rw [found] at sameField
      simp only [Schema.resolveReferences, Schema.resolveFrom, Schema.requireField, found,
        sameField]
      cases schema.require root <;> exact .failures

/-- Two starts are the same table, and the names that are left follow the same references. -/
structure Start.Meets (schema : Schema) (start start' : Start) : Prop where
  level : start'.level = start.level
  entry : start'.entry = start.entry
  names : ∀ root, Matched Eq (schema.resolveReferences root start.names)
    (schema.resolveReferences root start'.names)

theorem Start.Meets.refl (start : Start) : start.Meets schema start :=
  ⟨rfl, rfl, fun _ => .refl _⟩

theorem matched_locateRow {names : List String}
    (uses : scopes.Uses relabelling)
    (inUse : ∀ first ∈ names.head?, first ∈ relabelling.used) :
    Matched (Start.Meets schema) (locateRow schema scopes names)
      (locateRow schema (scopes.relabel relabelling.change)
        (changeFirst relabelling.change names)) := by
  cases scopes with
  | nil => exact .failures
  | cons scope outer =>
    cases names with
    | nil => exact .results (.refl _)
    | cons first rest =>
      have firstUsed := inUse first rfl
      have sameLabel := Scope.labelled?_relabel (uses scope List.mem_cons_self) firstUsed
      have samePlace := enclosing?_relabel uses firstUsed
      have atRoot : Start.Meets schema ⟨0, scope.root, first :: rest⟩
          ⟨0, scope.root, relabelling.change first :: rest⟩ :=
        ⟨rfl, rfl, fun root => matched_resolveReferences root inUse⟩
      have sameField (className : String) := relabelling.field?_change className firstUsed
      rw [Scopes.relabel_cons] at samePlace ⊢
      -- the first name stays in front when it is a field and when no table goes by it; only then is
      -- the changed name left to be followed
      simp only [changeFirst, locateRow, sameLabel, samePlace, sameField,
        Scope.rootClass?_relabel]
      cases scope.labelled? first with
      | some place => exact .results (.refl _)
      | none =>
        refine .ite (.results atRoot) ?_
        cases enclosing? first (scope :: outer) with
        | some found => exact .results (.refl _)
        | none => exact .results atRoot

theorem mirrored_joinStep {level entry : Nat} {owner : RowAlias} {step : Step}
    (uses : scopes.Uses relabelling) :
    Mirrored relabelling (joinStep schema level entry owner step)
      (joinStep schema level entry owner step) scopes := by
  apply Mirrored.get_bind
  rw [Scopes.relabel, List.getElem?_map]
  cases scopes[level]? with
  | none => exact .throw _ _
  | some scope =>
    simp only [Option.map_some, Scope.joined?_relabel]
    cases scope.joined? owner step.field.name with
    | some join => exact .pure uses join.name
    | none =>
      refine .lift_bind_same fun table _ => .lift_bind_same fun key _ => ?_
      refine .lift_bind_same fun restriction _ => ?_
      refine (Mirrored.modify (Scopes.relabel_modify _ _ _ _) (uses.modify level _)).bind ?_
      exact fun _ _ uses => .pure uses scope.nextName

theorem mirrored_joinAlong {level entry : Nat} {owner : RowAlias} {steps : List Step}
    (uses : scopes.Uses relabelling) :
    Mirrored relabelling (joinAlong schema level entry owner steps)
      (joinAlong schema level entry owner steps) scopes := by
  induction steps generalizing owner scopes with
  | nil => exact .pure uses owner
  | cons step rest inductionHypothesis =>
    exact (mirrored_joinStep uses).bind fun next later uses => inductionHypothesis uses

theorem mirrored_resolveRow {names : List String}
    (uses : scopes.Uses relabelling)
    (inUse : ∀ first ∈ names.head?, first ∈ relabelling.used) :
    Mirrored relabelling (resolveRow schema names)
      (resolveRow schema (changeFirst relabelling.change names)) scopes := by
  refine .get_bind (.lift_bind (matched_locateRow uses inUse) ?_)
  rintro start ⟨level, entry, rest⟩ ⟨rfl, rfl, sameSteps⟩
  have sameEntry : ((Scopes.relabel relabelling.change scopes)[start.level]?).bind
        (·.entries[start.entry]?) =
      (scopes[start.level]?.bind (·.entries[start.entry]?)).map
        (Entry.relabel relabelling.change) := by
    rw [Scopes.relabel, List.getElem?_map]
    cases scopes[start.level]? with
    | none => rfl
    | some scope => exact List.getElem?_map
  simp only [sameEntry]
  cases scopes[start.level]?.bind (·.entries[start.entry]?) with
  | none => exact .throw _ _
  | some entry =>
    simp only [Option.map_some, Entry.relabel]
    cases entry.className with
    | none => exact .throw _ _
    | some root =>
      apply Mirrored.lift_bind (sameSteps root)
      rintro steps _ rfl
      exact (mirrored_joinAlong uses).bind fun name _ uses => .pure uses _

theorem mirrored_resolveColumn {p : Path}
    (uses : scopes.Uses relabelling)
    (inUse : ∀ first ∈ p.owner.head?, first ∈ relabelling.used) :
    Mirrored relabelling (resolveColumn schema p)
      (resolveColumn schema ⟨changeFirst relabelling.change p.owner, p.name⟩) scopes := by
  refine (mirrored_resolveRow uses inUse).bind fun row _ uses => ?_
  exact .lift_bind_same fun field _ => .pure uses _

theorem mirrored_resolveCollection {owner : List String} (collection : String)
    (uses : scopes.Uses relabelling)
    (inUse : ∀ first ∈ owner.head?, first ∈ relabelling.used) :
    Mirrored relabelling (resolveCollection schema owner collection)
      (resolveCollection schema (changeFirst relabelling.change owner) collection) scopes := by
  refine (mirrored_resolveRow uses inUse).bind fun row _ uses => ?_
  exact .lift_bind_same fun found _ => .lift_bind_same fun key _ => .pure uses _

/-! ## Tables of a level -/

theorem mem_spokenNames_of_requireTable {className table : String}
    (isTable : requireTable schema className = .ok table) : className ∈ schema.spokenNames := by
  unfold requireTable at isTable
  split at isTable
  · next found => exact Schema.key_mem_spokenNames_of_table? found
  · cases isTable

theorem matched_addSources {scope : Scope} {items : List FromItem}
    (uses : scope.Uses relabelling)
    (inUse : ∀ item ∈ items, ∀ label ∈ item.label, label ∈ relabelling.used) :
    Matched (fun before after => after = (before.1.relabel relabelling.change, before.2) ∧
        before.1.Uses relabelling)
      (addSources schema scope items)
      (addSources schema (scope.relabel relabelling.change)
        (items.map (·.relabel relabelling.change))) := by
  induction items generalizing scope with
  | nil => exact .results ⟨rfl, uses⟩
  | cons item rest inductionHypothesis =>
    obtain ⟨ofItem, ofRest⟩ := List.forall_mem_cons.mp inUse
    rw [List.map_cons, addSources, addSources]
    refine .bind_same fun _ _ => .bind_same fun table isTable => .bind_same fun restriction _ => ?_
    have isSpoken := mem_spokenNames_of_requireTable isTable
    have added : (scope.addEntry (some item.className) item.label table).Uses relabelling :=
      uses.addClass isSpoken ofItem
    have others := inductionHypothesis added ofRest
    rw [Scope.addEntry_relabel] at others
    apply Matched.bind others
    rintro ⟨later, kept⟩ _ ⟨rfl, uses⟩
    exact .results ⟨rfl, uses⟩

/-- The tables of a collection have no labels. -/
theorem unlabelled_of_membership {depth : Nat} {collection : CollectionDef} {key : ColumnRef}
    {elementsMatter : Bool} {setup : Membership}
    (opened : membership schema depth collection key elementsMatter = .ok setup) :
    setup.scope.relabel relabelling.change = setup.scope ∧ setup.scope.Uses relabelling := by
  rw [membership] at opened
  split at opened
  · obtain ⟨table, isTable, opened⟩ := bind_eq_ok.mp opened
    obtain ⟨foreign, _, finished⟩ := bind_eq_ok.mp opened
    obtain rfl := Except.ok.inj finished
    have isSpoken := mem_spokenNames_of_requireTable isTable
    exact ⟨rfl, (Scope.uses_empty depth).addClass isSpoken (by simp)⟩
  · split at opened
    · obtain ⟨table, isTable, opened⟩ := bind_eq_ok.mp opened
      obtain ⟨column, _, finished⟩ := bind_eq_ok.mp opened
      obtain rfl := Except.ok.inj finished
      have isSpoken := mem_spokenNames_of_requireTable isTable
      exact ⟨rfl, (Scope.uses_empty depth).addPairs.addClass isSpoken (by simp)⟩
    · obtain rfl := Except.ok.inj opened
      exact ⟨rfl, (Scope.uses_empty depth).addPairs⟩

end ObjectQuery.Sql

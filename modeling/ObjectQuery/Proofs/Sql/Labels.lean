import Mathlib.Data.Set.Function
import ObjectQuery.Proofs.Expr.Relabelling
import ObjectQuery.Proofs.Schema.Stored
import ObjectQuery.Proofs.Sql.Scoped

/-!
Contract: scopes whose tables have other labels.

A change of labels keeps the names of classes and fields, and keeps different names different. Then
a name leads to a table exactly when the changed name leads to it under the changed labels.

Owns:
- `Relabelling`, such changes of names;
- `Scope.relabel`, what they do to scopes, and `Scope.Uses`, that they may be applied to a scope;
- that the look-ups of names find the same places.

Does not own: computations.
-/

namespace ObjectQuery

/-- A change of names that keeps those of a schema and keeps different names in use different. -/
structure Relabelling (schema : Schema) where
  change : String → String
  used : Set String
  keeps : ∀ name ∈ schema.spokenNames, change name = name
  spoken_used : ∀ name ∈ schema.spokenNames, name ∈ used
  injective : Set.InjOn change used

namespace Relabelling

variable {schema : Schema} (relabelling : Relabelling schema) {name spoken : String}

/-- One name takes the place of another one, where neither means anything to the schema. All names
but the new one may be in use. -/
def replacing {old new : String}
    (strange : old ∉ schema.spokenNames)
    (fresh : new ∉ schema.spokenNames) : Relabelling schema where
  change := replaceName old new
  used := {new}ᶜ
  keeps := fun name isSpoken => if_neg fun (same : name = old) => strange (same ▸ isSpoken)
  spoken_used := fun name isSpoken =>
    Set.mem_compl_singleton_iff.mpr fun same => fresh (same ▸ isSpoken)
  injective := by
    intro first firstUsed second secondUsed same
    rw [Set.mem_compl_singleton_iff] at firstUsed secondUsed
    unfold replaceName at same
    grind

/-- No other name becomes one of the schema. -/
theorem change_eq_iff
    (isSpoken : spoken ∈ schema.spokenNames)
    (inUse : name ∈ relabelling.used) : relabelling.change name = spoken ↔ name = spoken := by
  have inUse' := relabelling.spoken_used spoken isSpoken
  rw [← relabelling.injective.eq_iff inUse inUse', relabelling.keeps spoken isSpoken]

/-- A field of a class has its name before and after. -/
theorem field?_change (className : String) (inUse : name ∈ relabelling.used) :
    schema.field? className (relabelling.change name) = schema.field? className name := by
  cases found : schema.field? className name with
  | some field =>
    rw [relabelling.keeps name (Schema.field_mem_spokenNames found)]
    exact found
  | none =>
    cases found' : schema.field? className (relabelling.change name) with
    | none => rfl
    | some field =>
      have isSpoken := Schema.field_mem_spokenNames found'
      have same := (relabelling.change_eq_iff isSpoken inUse).mp rfl
      rw [← same, found] at found'
      cases found'

end Relabelling

namespace Sql

/-! ## Scopes -/

/-- A table with another label, if it has one. -/
def Entry.relabel (change : String → String) (entry : Entry) : Entry :=
  { entry with label := entry.label.map change }

/-- A scope with other labels. -/
def Scope.relabel (change : String → String) (scope : Scope) : Scope :=
  { scope with entries := scope.entries.map (·.relabel change) }

/-- Scopes with other labels. -/
def Scopes.relabel (change : String → String) (scopes : Scopes) : Scopes :=
  scopes.map (·.relabel change)

theorem Scopes.relabel_cons (change : String → String) (scope : Scope) (outer : Scopes) :
    Scopes.relabel change (scope :: outer) = scope.relabel change :: outer.relabel change :=
  rfl

variable {schema : Schema} {relabelling : Relabelling schema}

/-- The label and the class of a table are names in use. -/
structure Entry.Uses (relabelling : Relabelling schema) (entry : Entry) : Prop where
  label : ∀ name ∈ entry.label, name ∈ relabelling.used
  className : ∀ name ∈ entry.className, name ∈ schema.spokenNames

/-- The labels and classes of a scope are names in use. -/
def Scope.Uses (relabelling : Relabelling schema) (scope : Scope) : Prop :=
  ∀ entry ∈ scope.entries, entry.Uses relabelling

/-- The labels and classes of all levels are names in use. -/
def Scopes.Uses (relabelling : Relabelling schema) (scopes : Scopes) : Prop :=
  ∀ scope ∈ scopes, scope.Uses relabelling

section

variable {entry : Entry} {name : String}

theorem Entry.Uses.sameLabel (uses : entry.Uses relabelling) (inUse : name ∈ relabelling.used) :
    ((entry.relabel relabelling.change).label == some (relabelling.change name)) =
      (entry.label == some name) := by
  cases found : entry.label with
  | none => simp [Entry.relabel, found]
  | some label =>
    have labelUsed := uses.label label found
    simp [Entry.relabel, found, relabelling.injective.eq_iff labelUsed inUse]

theorem Entry.Uses.sameClass (uses : entry.Uses relabelling) (inUse : name ∈ relabelling.used) :
    ((entry.relabel relabelling.change).className == some (relabelling.change name)) =
      (entry.className == some name) := by
  cases found : entry.className with
  | none => simp [Entry.relabel, found]
  | some className =>
    have isSpoken := uses.className className found
    have same := relabelling.change_eq_iff isSpoken inUse
    simp [Entry.relabel, found, @eq_comm _ className, same]

end

namespace Scope

variable {scope : Scope} {name : String}

@[simp]
theorem rootClass?_relabel (change : String → String) :
    (scope.relabel change).rootClass? = scope.rootClass? := by
  simp only [rootClass?, relabel, List.getElem?_map]
  cases scope.entries[scope.root]? <;> rfl

@[simp]
theorem sources_relabel (change : String → String) :
    (scope.relabel change).sources = scope.sources := by
  simp only [sources, relabel, List.mapIdx_eq_zipIdx_map, List.zipIdx_map, List.map_map]
  rfl

@[simp]
theorem joined?_relabel (change : String → String) (owner : RowAlias) (field : String) :
    (scope.relabel change).joined? owner field = scope.joined? owner field :=
  rfl

theorem addEntry_relabel (change : String → String) {className label : Option String}
    {table : String} :
    (scope.addEntry className label table).relabel change =
      (scope.relabel change).addEntry className (label.map change) table := by
  simp [addEntry, relabel, Entry.relabel, nextName]

theorem uses_empty (depth : Nat) : (empty depth).Uses relabelling :=
  List.forall_mem_nil _

theorem Uses.addClass {className table : String} {label : Option String}
    (uses : scope.Uses relabelling)
    (isSpoken : className ∈ schema.spokenNames)
    (ofLabel : ∀ name ∈ label, name ∈ relabelling.used) :
    (scope.addEntry (some className) label table).Uses relabelling := by
  refine List.forall_mem_append.mpr ⟨uses, List.forall_mem_singleton.mpr ⟨ofLabel, ?_⟩⟩
  rintro name ⟨rfl⟩
  exact isSpoken

theorem Uses.addPairs {table : String} (uses : scope.Uses relabelling) :
    (scope.addEntry none none table).Uses relabelling :=
  List.forall_mem_append.mpr ⟨uses, List.forall_mem_singleton.mpr ⟨by simp, by simp⟩⟩

/-- The first entry that meets a condition is found at the same place. -/
theorem entryWhere?_relabel {change : String → String} {meets meets' : Entry → Bool}
    (same : ∀ entry ∈ scope.entries, meets' (entry.relabel change) = meets entry) :
    (scope.relabel change).entryWhere? meets' = scope.entryWhere? meets := by
  simp only [entryWhere?, relabel, List.findIdx?_map]
  generalize scope.entries = entries at same
  induction entries with
  | nil => rfl
  | cons entry rest inductionHypothesis =>
    obtain ⟨ofFirst, ofRest⟩ := List.forall_mem_cons.mp same
    rw [List.findIdx?_cons, List.findIdx?_cons, inductionHypothesis ofRest, Function.comp_apply,
      ofFirst]

theorem labelled?_relabel (uses : scope.Uses relabelling) (inUse : name ∈ relabelling.used) :
    (scope.relabel relabelling.change).labelled? (relabelling.change name) =
      scope.labelled? name :=
  entryWhere?_relabel fun entry member => by
    rw [(uses entry member).sameLabel inUse]
    rfl

theorem named?_relabel (uses : scope.Uses relabelling) (inUse : name ∈ relabelling.used) :
    (scope.relabel relabelling.change).named? (relabelling.change name) = scope.named? name := by
  have byLabel := @entryWhere?_relabel scope relabelling.change (·.label == some name)
    (·.label == some (relabelling.change name)) fun entry member => (uses entry member).sameLabel inUse
  have byClass := @entryWhere?_relabel scope relabelling.change
    (fun entry => entry.label.isNone && entry.className == some name)
    (fun entry => entry.label.isNone && entry.className == some (relabelling.change name))
    fun entry member => by
      rw [(uses entry member).sameClass inUse, Entry.relabel, Option.isNone_map]
  rw [named?, named?, byLabel, byClass]

end Scope

/-- The innermost level that has a table for a name has it for the other name. -/
theorem enclosing?_relabel {scopes : Scopes} {name : String}
    (uses : scopes.Uses relabelling)
    (inUse : name ∈ relabelling.used) :
    enclosing? (relabelling.change name) (scopes.relabel relabelling.change) =
      enclosing? name scopes := by
  induction scopes with
  | nil => rfl
  | cons scope outer inductionHypothesis =>
    obtain ⟨ofScope, ofOuter⟩ := List.forall_mem_cons.mp uses
    have sameClass (place : Nat) :
        ((scope.relabel relabelling.change).entries[place]?).bind (·.className) =
          (scope.entries[place]?).bind (·.className) := by
      rw [Scope.relabel, List.getElem?_map]
      cases scope.entries[place]? <;> rfl
    simp only [Scopes.relabel_cons, enclosing?, Scope.named?_relabel ofScope inUse, sameClass,
      inductionHypothesis ofOuter]

theorem Scopes.Uses.modify {scopes : Scopes} (uses : scopes.Uses relabelling) (level : Nat)
    (join : JoinedRow) : Scopes.Uses relabelling (scopes.modify level (·.addJoin join)) :=
  Scopes.forall_mem_modify uses fun _ old => old

theorem Scopes.relabel_modify (change : String → String) (scopes : Scopes) (level : Nat)
    (join : JoinedRow) :
    (Scopes.relabel change scopes).modify level (·.addJoin join) =
      Scopes.relabel change (scopes.modify level (·.addJoin join)) := by
  refine List.ext_getElem? fun place => ?_
  simp only [Scopes.relabel, List.getElem?_map, List.getElem?_modify]
  cases scopes[place]? with
  | none => rfl
  | some scope => split <;> rfl

end Sql

end ObjectQuery

import ObjectQuery.Proofs.Sql.Mentions
import ObjectQuery.Proofs.Sql.Rows

/-!
Contract: how the scope of a level is set up.

Owns:
- that a scope is set up with the tables of its from list alone, and that the conditions which come
  with it are about these tables and the key of the owner;
- `Restricts`, and that the rows of each class in a from list are kept apart by a condition.

Does not own: what happens in the scope.
-/

namespace ObjectQuery.Sql

/-- The conjuncts have no terms, and their columns are of these tables. -/
def TiedTo (tables : List RowAlias) (conditions : List Condition) : Prop :=
  ∀ condition ∈ conditions, condition.terms = [] ∧ ∀ ref ∈ condition.columns, ref.table ∈ tables

theorem TiedTo.mono {tables tables' : List RowAlias} {conditions : List Condition}
    (tied : TiedTo tables conditions) (more : tables ⊆ tables') : TiedTo tables' conditions :=
  fun condition member =>
    ⟨(tied condition member).1, fun ref column => more ((tied condition member).2 ref column)⟩

theorem TiedTo.append {tables : List RowAlias} {first second : List Condition}
    (tied : TiedTo tables first) (tied' : TiedTo tables second) : TiedTo tables (first ++ second) :=
  fun condition member => (List.mem_append.mp member).elim (tied condition) (tied' condition)

theorem TiedTo.terms_eq_nil {tables : List RowAlias} {conditions : List Condition}
    (tied : TiedTo tables conditions) : conditions.flatMap Condition.terms = [] :=
  List.flatMap_eq_nil_iff.mpr fun condition member => (tied condition member).1

theorem TiedTo.tables_subset {tables : List RowAlias} {conditions : List Condition}
    (tied : TiedTo tables conditions) :
    (conditions.flatMap Condition.columns).map (·.table) ⊆ tables := by
  intro name member
  obtain ⟨ref, column, rfl⟩ := List.mem_map.mp member
  obtain ⟨condition, member, column⟩ := List.mem_flatMap.mp column
  exact (tied condition member).2 ref column

variable {schema : Schema}

theorem tiedTo_restriction
    {name : RowAlias}
    {className : String}
    {kept : Option Restriction}
    (restricted : restrictionOf schema name className = .ok kept) :
    TiedTo [name] (kept.toList.map .restriction) := by
  intro condition member
  obtain ⟨restriction, isKept, rfl⟩ := List.mem_map.mp member
  refine ⟨rfl, fun ref column => ?_⟩
  obtain rfl := List.mem_singleton.mp column
  exact List.mem_singleton.mpr
    (table_of_restrictionOf restricted restriction (by simpa using isKept))

theorem names_addEntry {scope : Scope} {className label : Option String} {table : String}
    (noJoins : scope.joins = []) :
    (scope.addEntry className label table).names = scope.names ++ [scope.nextName] := by
  simp [Scope.names, Scope.addEntry, noJoins]

/-- From items are added to a scope in their order, each with the next name. -/
theorem opened_of_addSources
    {depth : Nat}
    {items : List FromItem}
    {start scope : Scope}
    {conditions : List Condition}
    (opened : start.Opened depth)
    (added : addSources schema start items = .ok (scope, conditions)) :
    scope.Opened depth ∧ start.names ⊆ scope.names ∧ TiedTo scope.names conditions ∧
      scope.nextNumber = start.nextNumber + items.length := by
  induction items generalizing start conditions with
  | nil =>
    obtain ⟨rfl, rfl⟩ := Prod.mk.inj (Except.ok.inj added)
    exact ⟨opened, List.Subset.refl _, fun _ member => absurd member List.not_mem_nil, rfl⟩
  | cons item rest inductionHypothesis =>
    obtain ⟨_, -, added⟩ := bind_eq_ok.mp added
    obtain ⟨table, -, added⟩ := bind_eq_ok.mp added
    obtain ⟨kept, restricted, added⟩ := bind_eq_ok.mp added
    obtain ⟨⟨_, others⟩, addedRest, finished⟩ := bind_eq_ok.mp added
    obtain ⟨rfl, rfl⟩ := Prod.mk.inj (Except.ok.inj finished)
    obtain ⟨openedAll, included, tied, counted⟩ :=
      inductionHypothesis (opened.addEntry (some item.className) item.label table) addedRest
    rw [names_addEntry opened.no_joins] at included
    obtain ⟨includedOld, includedNew⟩ := List.append_subset.mp included
    refine ⟨openedAll, includedOld, .append ((tiedTo_restriction restricted).mono includedNew) tied,
      ?_⟩
    rw [counted, List.length_cons]
    exact Nat.add_right_comm ..

/-- What is known of the scope of a collection. -/
structure Membership.Valid (setup : Membership) (depth : Nat) (owner : RowAlias) : Prop where
  opened : setup.scope.Opened depth
  some_entry : 0 < setup.scope.nextNumber
  tied : TiedTo (owner :: setup.scope.names) setup.conditions
  member_mem : ∀ row ∈ setup.member, row.name ∈ setup.scope.names

theorem valid_of_membership
    {depth : Nat}
    {collection : CollectionDef}
    {key : ColumnRef}
    {elementsMatter : Bool}
    {setup : Membership}
    (opened : membership schema depth collection key elementsMatter = .ok setup) :
    setup.Valid depth key.table ∧ (elementsMatter = true → setup.member.isSome) := by
  have start := Scope.opened_empty depth
  rw [membership] at opened
  split at opened
  · next element foreignField _ =>
    obtain ⟨table, -, opened⟩ := bind_eq_ok.mp opened
    obtain ⟨foreign, -, finished⟩ := bind_eq_ok.mp opened
    obtain rfl := Except.ok.inj finished
    refine ⟨⟨start.addEntry _ _ _, Nat.succ_pos _, ?_, ?_⟩, fun _ => rfl⟩
    · simp [TiedTo, Condition.terms, Condition.columns, names_addEntry start.no_joins]
    · simp [names_addEntry start.no_joins]
  · next element associationTable ownerColumn elementColumn _ =>
    have linked := start.addEntry none none associationTable
    split at opened
    · obtain ⟨table, -, opened⟩ := bind_eq_ok.mp opened
      obtain ⟨keyColumn, -, finished⟩ := bind_eq_ok.mp opened
      obtain rfl := Except.ok.inj finished
      have both := linked.addEntry (some element) none table
      have rooted :
          ({ ((Scope.empty depth).addEntry none none associationTable).addEntry (some element) none
              table with root := 1 } : Scope).names
            = [(Scope.empty depth).nextName,
              ((Scope.empty depth).addEntry none none associationTable).nextName] := by
        simp [Scope.names, Scope.addEntry, Scope.empty]
      refine ⟨⟨⟨both.depth_eq, both.names_eq, both.no_joins⟩, Nat.succ_pos _, ?_, ?_⟩, fun _ => rfl⟩
      · simp [TiedTo, Condition.terms, Condition.columns, rooted]
      · simp [rooted]
    · next unimportant =>
      obtain rfl := Except.ok.inj opened
      refine ⟨⟨linked, Nat.succ_pos _, ?_, by simp⟩, fun matter => absurd matter unimportant⟩
      simp [TiedTo, Condition.terms, Condition.columns, names_addEntry start.no_joins]

/-- The conditions on the row of the elements are about that row, and have the value in them that
its key is compared with. -/
theorem of_memberConditions
    {member : Option Row}
    {wanted : Option Term}
    {conditions : List Condition}
    (conditioned : memberConditions schema member wanted = .ok conditions) :
    (conditions.flatMap Condition.columns).map (·.table) ⊆ (member.map (·.name)).toList ∧
      conditions.flatMap Condition.terms = if member.isSome then wanted.toList else [] := by
  cases member with
  | none =>
    obtain rfl := Except.ok.inj conditioned
    exact ⟨List.nil_subset _, rfl⟩
  | some row =>
    obtain ⟨kept, restricted, conditioned⟩ := bind_eq_ok.mp conditioned
    have tied := tiedTo_restriction restricted
    cases wanted with
    | none =>
      obtain rfl := Except.ok.inj conditioned
      exact ⟨tied.tables_subset, tied.terms_eq_nil⟩
    | some term =>
      obtain ⟨key, -, finished⟩ := bind_eq_ok.mp conditioned
      obtain rfl := Except.ok.inj finished
      rw [List.flatMap_append, List.flatMap_append, List.map_append, tied.terms_eq_nil]
      exact ⟨List.append_subset.mpr ⟨tied.tables_subset, by simp [Condition.columns]⟩, rfl⟩

/-- The terms of a select over a collection: its item, the value that the key of the elements is
compared with and the test of the elements. -/
theorem terms_collectionSelect
    {depth : Nat}
    {owner : RowAlias}
    {setup : Membership}
    (valid : setup.Valid depth owner)
    {wanted : Option Term}
    {kept : List Condition}
    (conditioned : memberConditions schema setup.member wanted = .ok kept)
    (compared : wanted.isSome → setup.member.isSome)
    (item : Term)
    (scope : Scope)
    (test : Option Term) :
    (collectionSelect item scope (setup.conditions ++ kept ++ test.toList.map .term)).terms =
      item :: (wanted.toList ++ test.toList) := by
  have keptTerms := (of_memberConditions conditioned).2
  have compares : (if setup.member.isSome then wanted.toList else []) = wanted.toList := by
    split
    · rfl
    · next missing => cases wanted with
      | none => rfl
      | some _ => exact absurd (compared rfl) missing
  have tests : (test.toList.map Condition.term).flatMap Condition.terms = test.toList := by
    cases test <;> rfl
  simp [Select.terms, collectionSelect, List.flatMap_append, valid.tied.terms_eq_nil, keptTerms,
    compares, tests]

/-- The select over a collection: what it names are the owner's row, its own tables and what its
terms name, and it nests what these nest. -/
theorem of_collectionSelect
    {depth : Nat}
    {owner : RowAlias}
    {setup : Membership}
    (valid : setup.Valid depth owner)
    {wanted : Option Term}
    {kept : List Condition}
    (conditioned : memberConditions schema setup.member wanted = .ok kept)
    (compared : wanted.isSome → setup.member.isSome)
    {item : Term}
    (plain : item = .rowCount ∨ item = .allColumns)
    (scope : Scope)
    (test : Option Term) :
    let select := collectionSelect item scope (setup.conditions ++ kept ++ test.toList.map .term)
    let terms := wanted.toList ++ test.toList
    select.names ⊆ owner :: terms.flatMap Term.names ++ setup.scope.names ∧
      select.nested = terms.flatMap Term.nested := by
  intro select terms
  obtain ⟨keptTables, -⟩ := of_memberConditions conditioned
  have sameTerms : select.terms = item :: terms :=
    terms_collectionSelect valid conditioned compared item scope test
  have itemNames : item.names = [] := by rcases plain with rfl | rfl <;> rfl
  have itemNested : item.nested = [] := by rcases plain with rfl | rfl <;> rfl
  constructor
  · have noColumns : (test.toList.map Condition.term).flatMap Condition.columns = [] := by
      cases test <;> rfl
    have ownTables :
        ((setup.conditions ++ kept).flatMap Condition.columns).map (·.table)
          ⊆ owner :: setup.scope.names := by
      rw [List.flatMap_append, List.map_append]
      refine List.append_subset.mpr ⟨valid.tied.tables_subset, fun name member => ?_⟩
      obtain ⟨row, isMember, rfl⟩ :=
        Option.map_eq_some_iff.mp (Option.mem_toList.mp (keptTables member))
      exact List.mem_cons_of_mem _ (valid.member_mem row isMember)
    rw [Select.names, sameTerms, List.flatMap_cons, itemNames, List.nil_append]
    refine List.append_subset.mpr ⟨?_, ?_⟩
    · exact fun name member =>
        List.mem_append_left _ (List.mem_cons_of_mem _ member)
    · rw [show select.conditions = setup.conditions ++ kept ++ test.toList.map .term from rfl,
        List.flatMap_append, noColumns, List.append_nil]
      intro name member
      rcases List.mem_cons.mp (ownTables member) with rfl | own
      · exact List.mem_append_left _ List.mem_cons_self
      · exact List.mem_append_right _ own
  · rw [Select.nested, sameTerms, List.flatMap_cons, itemNested, List.nil_append]

/-! ## Restrictions -/

/-- For each class in a from list the conditions have what keeps its rows apart from others in the
table. -/
def Restricts (schema : Schema) (entries : List Entry) (conditions : List Condition) : Prop :=
  ∀ entry ∈ entries, ∀ className, entry.className = some className →
    ∃ kept, restrictionOf schema entry.name className = .ok kept ∧
      ∀ restriction ∈ kept, .restriction restriction ∈ conditions

theorem Restricts.mono {entries : List Entry} {conditions more : List Condition}
    (restricts : Restricts schema entries conditions)
    (included : conditions ⊆ more) : Restricts schema entries more := by
  intro entry member className isClass
  obtain ⟨kept, restricted, inConditions⟩ := restricts entry member className isClass
  exact ⟨kept, restricted, fun restriction isKept => included (inConditions restriction isKept)⟩

/-- By induction on the from items, with the conditions for those in front. -/
theorem restricts_of_addSources
    {items : List FromItem}
    {start scope : Scope}
    {before conditions : List Condition}
    (restricts : Restricts schema start.entries before)
    (added : addSources schema start items = .ok (scope, conditions)) :
    Restricts schema scope.entries (before ++ conditions) := by
  induction items generalizing start before conditions with
  | nil =>
    obtain ⟨rfl, rfl⟩ := Prod.mk.inj (Except.ok.inj added)
    exact restricts.mono (List.subset_append_left _ _)
  | cons item rest inductionHypothesis =>
    obtain ⟨_, -, added⟩ := bind_eq_ok.mp added
    obtain ⟨table, -, added⟩ := bind_eq_ok.mp added
    obtain ⟨kept, restricted, added⟩ := bind_eq_ok.mp added
    obtain ⟨⟨_, others⟩, addedRest, finished⟩ := bind_eq_ok.mp added
    obtain ⟨rfl, rfl⟩ := Prod.mk.inj (Except.ok.inj finished)
    rw [← List.append_assoc]
    refine inductionHypothesis (fun entry member className isClass => ?_) addedRest
    rcases List.mem_append.mp member with isOld | isNew
    · exact restricts.mono (List.subset_append_left _ _) entry isOld className isClass
    · obtain rfl := List.mem_singleton.mp isNew
      obtain rfl := Option.some.inj isClass
      refine ⟨kept, restricted, fun restriction isKept => List.mem_append_right _ ?_⟩
      exact List.mem_map_of_mem (Option.mem_toList.mpr isKept)

/-- The row of the elements has its restriction among the conditions on it. -/
theorem restriction_of_memberConditions {row : Row} {wanted : Option Term}
    {conditions : List Condition}
    (conditioned : memberConditions schema (some row) wanted = .ok conditions) :
    ∃ kept, restrictionOf schema row.name row.className = .ok kept ∧
      ∀ restriction ∈ kept, .restriction restriction ∈ conditions := by
  obtain ⟨kept, restricted, conditioned⟩ := bind_eq_ok.mp conditioned
  refine ⟨kept, restricted, fun restriction isKept => ?_⟩
  have inKept : .restriction restriction ∈ kept.toList.map Condition.restriction :=
    List.mem_map_of_mem (Option.mem_toList.mpr isKept)
  cases wanted with
  | none =>
    obtain rfl := Except.ok.inj conditioned
    exact inKept
  | some t =>
    obtain ⟨_, -, finished⟩ := bind_eq_ok.mp conditioned
    obtain rfl := Except.ok.inj finished
    exact List.mem_append_left _ inKept

section

variable {depth : Nat} {collection : CollectionDef} {key : ColumnRef} {elementsMatter : Bool}
variable {setup : Membership}
variable (opened : membership schema depth collection key elementsMatter = .ok setup)

include opened

/-- The class of the elements of a collection is the only one in its scope. -/
theorem member_of_membership {entry : Entry} {className : String}
    (inScope : entry ∈ setup.scope.entries)
    (isClass : entry.className = some className) :
    setup.member = some ⟨entry.name, className⟩ := by
  rw [membership] at opened
  split at opened
  · obtain ⟨table, -, opened⟩ := bind_eq_ok.mp opened
    obtain ⟨foreign, -, finished⟩ := bind_eq_ok.mp opened
    obtain rfl := Except.ok.inj finished
    obtain rfl := List.mem_singleton.mp inScope
    obtain rfl := Option.some.inj isClass
    rfl
  · split at opened
    · obtain ⟨table, -, opened⟩ := bind_eq_ok.mp opened
      obtain ⟨keyColumn, -, finished⟩ := bind_eq_ok.mp opened
      obtain rfl := Except.ok.inj finished
      rcases List.mem_cons.mp inScope with rfl | isElement
      · cases isClass
      · obtain rfl := List.mem_singleton.mp isElement
        obtain rfl := Option.some.inj isClass
        rfl
    · obtain rfl := Except.ok.inj opened
      obtain rfl := List.mem_singleton.mp inScope
      cases isClass

theorem restricts_of_memberConditions {wanted : Option Term} {conditions : List Condition}
    (conditioned : memberConditions schema setup.member wanted = .ok conditions) :
    Restricts schema setup.scope.entries conditions := by
  intro entry inScope className isClass
  rw [member_of_membership opened inScope isClass] at conditioned
  exact restriction_of_memberConditions conditioned

end

end ObjectQuery.Sql

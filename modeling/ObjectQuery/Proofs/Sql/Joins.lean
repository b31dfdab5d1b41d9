import Mathlib.Data.List.Nodup
import ObjectQuery.Sql.Scope

/-!
Contract: the tables of one select while references are followed from them.

A scope is opened with the tables of its from list and then only gains joins, each of which is owned
by a row that is there already and gets the next number. So a chain of references leads to one row,
and a row is led to by one chain.

Owns:
- `Scope.LeadsTo`, the row that a chain of references leads to from an entry;
- `Scope.Built`, the scopes that come about, with their invariants;
- `Scope.Grows`, what a scope may gain.

Does not own: which references are followed.
-/

namespace ObjectQuery.Sql.Scope

/-- The names of the tables of a scope: those of its from list, then those joined to them. -/
def names (scope : Scope) : List RowAlias :=
  scope.entries.map (·.name) ++ scope.joins.map (·.name)

/-- From the entry at a place a chain of references leads to a row: to the entry's own row at first,
and with one more reference to the table that is joined for it. -/
inductive LeadsTo (scope : Scope) (place : Nat) : List String → RowAlias → Prop
  | entry {entry : Entry} (found : scope.entries[place]? = some entry) :
      LeadsTo scope place [] entry.name
  | join {chain : List String} {join : JoinedRow}
      (owner : LeadsTo scope place chain join.owner)
      (member : join ∈ scope.joins)
      (same : join.entry = place) :
      LeadsTo scope place (chain ++ [join.field.name]) join.name

/-- A scope with nothing joined yet, whose tables have the first numbers. -/
structure Opened (depth : Nat) (scope : Scope) : Prop where
  depth_eq : scope.depth = depth
  names_eq : scope.entries.map (·.name) = (List.range scope.nextNumber).map (RowAlias.mk depth)
  no_joins : scope.joins = []

/-- The scopes that come about: opened ones, and those with one more join than another. A join is
owned by a row of its entry, is the first for its field, and has the next name. -/
inductive Built : Scope → Prop
  | opened {depth : Nat} {scope : Scope} (opened : scope.Opened depth) : Built scope
  | joined {scope : Scope} {join : JoinedRow} {chain : List String}
      (built : Built scope)
      (owner : scope.LeadsTo join.entry chain join.owner)
      (first : scope.joined? join.owner join.field.name = none)
      (name : join.name = scope.nextName)
      (own : ∀ restriction ∈ join.restriction, restriction.selector.table = join.name) :
      Built (scope.addJoin join)

/-- A later state of a scope: it has the same from list, and joins are added behind the others. -/
structure Grows (scope later : Scope) : Prop where
  depth_eq : later.depth = scope.depth
  entries_eq : later.entries = scope.entries
  root_eq : later.root = scope.root
  joins_prefix : scope.joins <+: later.joins

/-! ## Gaining joins -/

theorem Grows.refl (scope : Scope) : scope.Grows scope :=
  ⟨rfl, rfl, rfl, List.prefix_refl _⟩

theorem Grows.trans
    {scope between later : Scope}
    (first : scope.Grows between)
    (second : between.Grows later) : scope.Grows later where
  depth_eq := second.depth_eq.trans first.depth_eq
  entries_eq := second.entries_eq.trans first.entries_eq
  root_eq := second.root_eq.trans first.root_eq
  joins_prefix := first.joins_prefix.trans second.joins_prefix

theorem grows_addJoin (scope : Scope) (join : JoinedRow) : scope.Grows (scope.addJoin join) :=
  ⟨rfl, rfl, rfl, List.prefix_append _ _⟩

theorem Grows.names_subset {scope later : Scope} (grows : scope.Grows later) :
    scope.names ⊆ later.names := by
  intro name member
  rw [names, List.mem_append] at member ⊢
  rw [grows.entries_eq]
  exact member.imp_right fun joined => List.map_subset _ grows.joins_prefix.subset joined

/-- A chain goes on leading where it led. -/
theorem LeadsTo.grows
    {scope later : Scope}
    {place : Nat}
    {chain : List String}
    {name : RowAlias}
    (grows : scope.Grows later)
    (leads : scope.LeadsTo place chain name) : later.LeadsTo place chain name := by
  induction leads with
  | entry found => exact .entry (grows.entries_eq ▸ found)
  | join _ member same inductionHypothesis =>
    exact .join inductionHypothesis (grows.joins_prefix.subset member) same

theorem names_addJoin (scope : Scope) (join : JoinedRow) :
    (scope.addJoin join).names = scope.names ++ [join.name] := by
  simp [names, addJoin]

theorem Opened.names_eq_range {depth : Nat} {scope : Scope} (opened : scope.Opened depth) :
    scope.names = (List.range scope.nextNumber).map (RowAlias.mk depth) := by
  simp [names, opened.no_joins, opened.names_eq]

theorem opened_empty (depth : Nat) : (empty depth).Opened depth :=
  ⟨rfl, rfl, rfl⟩

theorem Opened.addEntry
    {depth : Nat}
    {scope : Scope}
    (opened : scope.Opened depth)
    (className label : Option String)
    (table : String) : (scope.addEntry className label table).Opened depth where
  depth_eq := opened.depth_eq
  names_eq := by
    simp [Scope.addEntry, nextName, opened.names_eq, opened.depth_eq, List.range_succ]
  no_joins := opened.no_joins

/-! ## Names -/

section

variable {scope : Scope} (built : scope.Built)

include built

/-- The names of a scope are its depth with a number below the next one. -/
theorem Built.names_numbered :
    ∀ name ∈ scope.names, name.depth = scope.depth ∧ name.number < scope.nextNumber := by
  induction built with
  | @opened depth scope opened =>
    intro name member
    rw [opened.names_eq_range, List.mem_map] at member
    obtain ⟨number, below, rfl⟩ := member
    exact ⟨opened.depth_eq.symm, List.mem_range.mp below⟩
  | @joined scope join _ _ _ _ next _ inductionHypothesis =>
    intro name member
    rw [names_addJoin, List.mem_append, List.mem_singleton] at member
    rcases member with old | rfl
    · obtain ⟨sameDepth, below⟩ := inductionHypothesis name old
      exact ⟨sameDepth, Nat.lt_succ_of_lt below⟩
    · rw [next]
      exact ⟨rfl, Nat.lt_succ_self _⟩

theorem Built.nextName_not_mem : scope.nextName ∉ scope.names := fun member =>
  absurd (built.names_numbered _ member).2 (Nat.lt_irrefl _)

theorem Built.names_nodup : scope.names.Nodup := by
  induction built with
  | @opened depth scope opened =>
    rw [opened.names_eq_range]
    exact List.nodup_range.map fun number number' same => (RowAlias.mk.inj same).2
  | @joined scope join _ built _ _ next _ inductionHypothesis =>
    rw [names_addJoin, List.nodup_append]
    refine ⟨inductionHypothesis, List.nodup_singleton _, ?_⟩
    intro name member name' isNew same
    rw [List.mem_singleton.mp isNew, next] at same
    exact built.nextName_not_mem (same ▸ member)

end

/-! ## Chains and rows -/

theorem leadsTo_iff {scope : Scope} {place : Nat} {chain : List String} {name : RowAlias} :
    scope.LeadsTo place chain name ↔
      (∃ entry, scope.entries[place]? = some entry ∧ chain = [] ∧ name = entry.name) ∨
        ∃ before join, scope.LeadsTo place before join.owner ∧ join ∈ scope.joins ∧
          join.entry = place ∧ chain = before ++ [join.field.name] ∧ name = join.name := by
  constructor
  · rintro (found | ⟨owner, member, same⟩)
    · exact .inl ⟨_, found, rfl, rfl⟩
    · exact .inr ⟨_, _, owner, member, same, rfl, rfl⟩
  · rintro (⟨entry, found, rfl, rfl⟩ | ⟨before, join, owner, member, same, rfl, rfl⟩)
    · exact .entry found
    · exact .join owner member same

theorem LeadsTo.mem_names
    {scope : Scope}
    {place : Nat}
    {chain : List String}
    {name : RowAlias}
    (leads : scope.LeadsTo place chain name) : name ∈ scope.names := by
  cases leads with
  | entry found => exact List.mem_append_left _ (List.mem_map_of_mem (List.mem_of_getElem? found))
  | join _ member _ => exact List.mem_append_right _ (List.mem_map_of_mem member)

theorem LeadsTo.exists_entry
    {scope : Scope}
    {place : Nat}
    {chain : List String}
    {name : RowAlias}
    (leads : scope.LeadsTo place chain name) : ∃ entry, scope.entries[place]? = some entry := by
  induction leads with
  | entry found => exact ⟨_, found⟩
  | join _ _ _ inductionHypothesis => exact inductionHypothesis

section

variable {scope : Scope} (nodup : scope.names.Nodup)

include nodup

theorem join_eq_of_name_eq
    {join join' : JoinedRow}
    (member : join ∈ scope.joins)
    (member' : join' ∈ scope.joins)
    (same : join.name = join'.name) : join = join' :=
  List.inj_on_of_nodup_map (List.nodup_append.mp nodup).2.1 member member' same

theorem entry_name_ne_join_name
    {place : Nat}
    {entry : Entry}
    {join : JoinedRow}
    (found : scope.entries[place]? = some entry)
    (member : join ∈ scope.joins) : entry.name ≠ join.name :=
  (List.nodup_append.mp nodup).2.2 _ (List.mem_map_of_mem (List.mem_of_getElem? found)) _
    (List.mem_map_of_mem member)

theorem place_eq_of_name_eq
    {place place' : Nat}
    {entry entry' : Entry}
    (found : scope.entries[place]? = some entry)
    (found' : scope.entries[place']? = some entry')
    (same : entry.name = entry'.name) : place = place' := by
  have distinct := (List.nodup_append.mp nodup).1
  obtain ⟨inside, -⟩ := List.getElem?_eq_some_iff.mp found
  refine (List.getElem?_inj (by simpa using inside) distinct).mp ?_
  simp [found, found', same]

/-- A row is led to from one entry, by one chain. -/
theorem LeadsTo.unique
    {place place' : Nat}
    {chain chain' : List String}
    {name : RowAlias}
    (leads : scope.LeadsTo place chain name)
    (leads' : scope.LeadsTo place' chain' name) : place = place' ∧ chain = chain' := by
  induction leads generalizing chain' with
  | entry found =>
    rcases leadsTo_iff.mp leads' with ⟨_, found', rfl, same⟩ | ⟨_, _, _, member, _, _, same⟩
    · exact ⟨place_eq_of_name_eq nodup found found' same, rfl⟩
    · exact absurd same (entry_name_ne_join_name nodup found member)
  | join _ member _ inductionHypothesis =>
    rcases leadsTo_iff.mp leads' with ⟨_, found', _, same⟩ | ⟨_, _, owner', member', _, rfl, same⟩
    · exact absurd same.symm (entry_name_ne_join_name nodup found' member)
    · obtain rfl := join_eq_of_name_eq nodup member member' same
      obtain ⟨samePlace, rfl⟩ := inductionHypothesis owner'
      exact ⟨samePlace, rfl⟩

end

section

variable {scope : Scope} (built : scope.Built)

include built

/-- Every join is led to from its entry. -/
theorem Built.exists_leadsTo {join : JoinedRow} (member : join ∈ scope.joins) :
    ∃ chain, scope.LeadsTo join.entry (chain ++ [join.field.name]) join.name ∧
      scope.LeadsTo join.entry chain join.owner := by
  induction built with
  | opened opened =>
    rw [opened.no_joins] at member
    cases member
  | @joined scope new chain _ owner _ _ _ inductionHypothesis =>
    have grows := grows_addJoin scope new
    rcases List.mem_append.mp member with old | isNew
    · obtain ⟨before, leads, owned⟩ := inductionHypothesis old
      exact ⟨before, leads.grows grows, owned.grows grows⟩
    · obtain rfl := List.mem_singleton.mp isNew
      exact ⟨chain, .join (owner.grows grows) member rfl, owner.grows grows⟩

/-- The entry of a join is there. -/
theorem Built.exists_entry {join : JoinedRow} (member : join ∈ scope.joins) :
    ∃ entry, scope.entries[join.entry]? = some entry := by
  obtain ⟨chain, leads, -⟩ := built.exists_leadsTo member
  exact leads.exists_entry

theorem Built.owner_mem_names {join : JoinedRow} (member : join ∈ scope.joins) :
    join.owner ∈ scope.names := by
  obtain ⟨_, _, owner⟩ := built.exists_leadsTo member
  exact owner.mem_names

/-- Two joins of one owner for one field are one join. -/
theorem Built.joins_pairwise :
    scope.joins.Pairwise fun join later =>
      ¬(later.owner = join.owner ∧ later.field.name = join.field.name) := by
  induction built with
  | opened opened =>
    rw [opened.no_joins]
    exact .nil
  | @joined scope new _ _ _ first _ _ inductionHypothesis =>
    refine List.pairwise_append.mpr ⟨inductionHypothesis, List.pairwise_singleton _ _, ?_⟩
    intro join member later isNew
    obtain rfl := List.mem_singleton.mp isNew
    rintro ⟨sameOwner, sameField⟩
    have unmet := List.find?_eq_none.mp first join member
    exact unmet (decide_eq_true ⟨sameOwner.symm, sameField.symm⟩)

/-- The join of an owner for a field is found under the two, and nothing else is. -/
theorem Built.joined?_eq_some_iff {owner : RowAlias} {field : String} {join : JoinedRow} :
    scope.joined? owner field = some join ↔
      join ∈ scope.joins ∧ join.owner = owner ∧ join.field.name = field := by
  constructor
  · intro found
    have met := List.find?_some found
    exact ⟨List.mem_of_find?_eq_some found, of_decide_eq_true met⟩
  · rintro ⟨member, sameOwner, sameField⟩
    obtain ⟨before, after, split⟩ := List.append_of_mem member
    have distinct := built.joins_pairwise
    rw [split, List.pairwise_append] at distinct
    refine List.find?_eq_some_iff_append.mpr
      ⟨decide_eq_true ⟨sameOwner, sameField⟩, before, after, split, fun other earlier => ?_⟩
    have differs := distinct.2.2 other earlier join List.mem_cons_self
    rw [sameOwner, sameField] at differs
    exact Bool.not_eq_true' _ ▸ decide_eq_false fun ⟨same, same'⟩ => differs ⟨same.symm, same'.symm⟩

/-- A chain leads to one row. -/
theorem Built.leadsTo_row_unique
    {place : Nat}
    {chain : List String}
    {name name' : RowAlias}
    (leads : scope.LeadsTo place chain name)
    (leads' : scope.LeadsTo place chain name') : name = name' := by
  induction leads generalizing name' with
  | entry found =>
    rcases leadsTo_iff.mp leads' with ⟨_, found', _, rfl⟩ | ⟨_, _, _, _, _, isLonger, _⟩
    · rw [found] at found'
      rw [Option.some.inj found']
    · simp at isLonger
  | @join chain join _ member _ inductionHypothesis =>
    rcases leadsTo_iff.mp leads' with
      ⟨_, _, isEmpty, _⟩ | ⟨before, join', owner', member', _, same, rfl⟩
    · simp at isEmpty
    · obtain ⟨rfl, sameField⟩ := List.append_inj' same rfl
      have found := built.joined?_eq_some_iff.mpr ⟨member, inductionHypothesis owner', rfl⟩
      have found' :=
        built.joined?_eq_some_iff.mpr ⟨member', rfl, (List.singleton_inj.mp sameField).symm⟩
      rw [found] at found'
      rw [Option.some.inj found']

/-- The owner of a join is the row of its own entry or of an earlier join of that entry. -/
theorem Built.owner_earlier
    {before after : List JoinedRow}
    {join : JoinedRow}
    (split : scope.joins = before ++ join :: after) :
    (∃ entry, scope.entries[join.entry]? = some entry ∧ join.owner = entry.name) ∨
      ∃ earlier ∈ before, earlier.entry = join.entry ∧ earlier.name = join.owner := by
  induction built generalizing after with
  | opened opened =>
    rw [opened.no_joins] at split
    simp at split
  | @joined scope new chain _ owner _ _ _ inductionHypothesis =>
    rcases List.eq_nil_or_concat after with rfl | ⟨others, last, rfl⟩
    · obtain ⟨rfl, same⟩ := List.append_inj' split rfl
      obtain rfl := List.singleton_inj.mp same
      rcases leadsTo_iff.mp owner with
        ⟨entry, found, _, same⟩ | ⟨_, earlier, _, member, sameEntry, _, same⟩
      · exact .inl ⟨entry, found, same⟩
      · exact .inr ⟨earlier, member, sameEntry, same.symm⟩
    · have shorter : scope.joins = before ++ join :: others := by
        rw [List.concat_eq_append, ← List.cons_append, ← List.append_assoc] at split
        exact (List.append_inj' split rfl).1
      exact inductionHypothesis shorter

/-- The restriction of a join is one of its own row. -/
theorem Built.restriction_own
    {join : JoinedRow}
    (member : join ∈ scope.joins)
    {restriction : Restriction}
    (restricted : restriction ∈ join.restriction) :
    restriction.selector.table = join.name := by
  induction built with
  | opened opened =>
    rw [opened.no_joins] at member
    cases member
  | @joined scope new _ _ _ _ _ own inductionHypothesis =>
    rcases List.mem_append.mp member with old | isNew
    · exact inductionHypothesis old
    · obtain rfl := List.mem_singleton.mp isNew
      exact own restriction restricted

/-- One more join adds one chain: that of its owner with its field behind. -/
theorem Built.leadsTo_addJoin_cases
    {new : JoinedRow}
    {ownerChain : List String}
    (owner : scope.LeadsTo new.entry ownerChain new.owner)
    (next : new.name = scope.nextName)
    {place : Nat}
    {chain : List String}
    {name : RowAlias}
    (leads : (scope.addJoin new).LeadsTo place chain name) :
    scope.LeadsTo place chain name ∨
      place = new.entry ∧ chain = ownerChain ++ [new.field.name] ∧ name = new.name := by
  have notNew {old : RowAlias} (member : old ∈ scope.names) : old ≠ new.name := fun same =>
    built.nextName_not_mem (next ▸ same ▸ member)
  induction leads with
  | entry found => exact .inl (.entry found)
  | @join chain join _ member same inductionHypothesis =>
    rcases List.mem_append.mp member with old | isNew
    · rcases inductionHypothesis with owned | ⟨_, _, isNew⟩
      · exact .inl (.join owned old same)
      · exact absurd isNew (notNew (built.owner_mem_names old))
    · obtain rfl := List.mem_singleton.mp isNew
      rcases inductionHypothesis with owned | ⟨_, _, isNew⟩
      · obtain ⟨_, rfl⟩ := owned.unique built.names_nodup owner
        exact .inr ⟨same.symm, rfl, rfl⟩
      · exact absurd isNew (notNew owner.mem_names)

end

end ObjectQuery.Sql.Scope

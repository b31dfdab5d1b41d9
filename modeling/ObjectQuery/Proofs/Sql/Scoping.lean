import ObjectQuery.Proofs.Sql.Sharing

/-!
Contract: every table that a statement names is declared where it is in reach.

A nested select may name tables that are joined to outer selects on its account. These joins are
there when the outer select is put together, so what a select names is among the tables that the
scopes have in the end.

Owns: `Select.WellScoped`, and that statements of queries are.

Does not own: that a name is declared only once.
-/

namespace ObjectQuery.Sql

/-- The `on` condition of each join names its own table, the table of the from item, or one joined
to it before. -/
def Source.Ordered (source : Source) : Prop :=
  ∀ before join after, source.joins = before ++ join :: after →
    ∀ name ∈ join.names,
      name = join.name ∨ name = source.name ∨ name ∈ before.map (·.name)

/-- Among selects that declare these tables, a select and those nested in it name tables that are
declared around them or by themselves, and its from items are in order. -/
inductive Select.WellScoped : List RowAlias → Select → Prop
  | intro {known : List RowAlias} {select : Select}
      (names : select.names ⊆ known ++ select.declared)
      (sources : ∀ source ∈ select.sources, source.Ordered)
      (nested : ∀ inner ∈ select.nested, WellScoped (known ++ select.declared) inner) :
      WellScoped known select

/-- More tables around a select do no harm. -/
theorem Select.WellScoped.mono
    {known more : List RowAlias}
    {select : Select}
    (valid : select.WellScoped known)
    (included : known ⊆ more) : select.WellScoped more := by
  induction valid generalizing more with
  | @intro known select names sources _ inductionHypothesis =>
    have includedAll : known ++ select.declared ⊆ more ++ select.declared :=
      List.append_subset.mpr ⟨List.Subset.trans included (List.subset_append_left _ _),
        List.subset_append_right _ _⟩
    exact .intro (List.Subset.trans names includedAll) sources fun inner member =>
      inductionHypothesis inner member includedAll

/-! ## The from list of a scope -/

namespace Scope

/-- The from list declares the tables of the scope. -/
theorem Built.mem_declared {scope : Scope} (built : scope.Built) {name : RowAlias} :
    name ∈ scope.sources.flatMap Source.declared ↔ name ∈ scope.names := by
  rw [List.mem_flatMap, names, List.mem_append]
  constructor
  · rintro ⟨source, isSource, declared⟩
    obtain ⟨place, inside, rfl⟩ := List.mem_mapIdx.mp isSource
    rcases List.mem_cons.mp declared with rfl | isJoined
    · exact .inl (List.mem_map_of_mem (List.getElem_mem inside))
    · obtain ⟨_, isJoin, rfl⟩ := List.mem_map.mp isJoined
      obtain ⟨join, member, rfl⟩ := List.mem_map.mp isJoin
      exact .inr (List.mem_map_of_mem (List.mem_of_mem_filter member))
  · rintro (isEntry | isJoin)
    · obtain ⟨entry, member, rfl⟩ := List.mem_map.mp isEntry
      obtain ⟨place, inside, rfl⟩ := List.mem_iff_getElem.mp member
      exact ⟨_, List.mem_mapIdx.mpr ⟨place, inside, rfl⟩, List.mem_cons_self⟩
    · obtain ⟨join, member, rfl⟩ := List.mem_map.mp isJoin
      obtain ⟨entry, found⟩ := built.exists_entry member
      obtain ⟨inside, -⟩ := List.getElem?_eq_some_iff.mp found
      refine ⟨_, List.mem_mapIdx.mpr ⟨join.entry, inside, rfl⟩, List.mem_cons_of_mem _ ?_⟩
      exact List.mem_map_of_mem (List.mem_map_of_mem (List.mem_filter.mpr ⟨member, by simp⟩))

/-- Joins stand behind those that own them. -/
theorem Built.ordered {scope : Scope} (built : scope.Built) :
    ∀ source ∈ scope.sources, source.Ordered := by
  intro source isSource before join after split name named
  obtain ⟨place, inside, rfl⟩ := List.mem_mapIdx.mp isSource
  obtain ⟨kept, rest, splitKept, rfl, mapped⟩ := List.map_eq_append_iff.mp split
  obtain ⟨row, others, rfl, rfl, rfl⟩ := List.map_eq_cons_iff.mp mapped
  obtain ⟨front, back, splitJoins, rfl, keptBack⟩ := List.filter_eq_append_iff.mp splitKept
  obtain ⟨between, back, rfl, unkept, isKept, rfl⟩ := List.filter_eq_cons_iff.mp keptBack
  have samePlace : row.entry = place := of_decide_eq_true isKept
  simp only [Join.names, List.cons_append, List.nil_append, List.mem_cons, List.mem_map] at named
  rcases named with rfl | rfl | ⟨restriction, restricted, rfl⟩
  · rw [← List.append_assoc] at splitJoins
    rcases built.owner_earlier splitJoins with
      ⟨entry, found, isOwner⟩ | ⟨earlier, member, same, isOwner⟩
    · rw [samePlace, List.getElem?_eq_getElem inside] at found
      exact .inr (.inl (Option.some.inj found ▸ isOwner))
    · have isFront : earlier ∈ front := by
        rcases List.mem_append.mp member with isFront | isBetween
        · exact isFront
        · exact absurd (decide_eq_true (same.trans samePlace)) (unkept earlier isBetween)
      refine .inr (.inr (List.mem_map.mpr ⟨_, List.mem_map_of_mem (List.mem_filter.mpr
        ⟨isFront, decide_eq_true (same.trans samePlace)⟩), isOwner⟩))
  · exact .inl rfl
  · refine .inl (built.restriction_own ?_ (Option.mem_toList.mp restricted))
    exact splitJoins ▸ List.mem_append_right _ (List.mem_append_right _ List.mem_cons_self)

end Scope

/-! ## Names along a course -/

namespace Scopes

/-- The names of the tables of all levels. -/
def names (scopes : Scopes) : List RowAlias :=
  scopes.flatMap Scope.names

theorem Grow.names_subset {scopes later : Scopes} (grow : scopes.Grow later) :
    scopes.names ⊆ later.names := by
  induction grow with
  | nil => exact List.Subset.refl _
  | cons grows _ inductionHypothesis =>
    rw [names, names, List.flatMap_cons, List.flatMap_cons]
    exact List.append_subset.mpr
      ⟨List.Subset.trans grows.names_subset (List.subset_append_left _ _),
        List.Subset.trans inductionHypothesis (List.subset_append_right _ _)⟩

end Scopes

variable {schema : Schema}

/-- A row that is looked up is a table of some level. -/
theorem name_mem_of_resolveRow
    {names : List String}
    {row : Row}
    {scopes scopes' : Scopes}
    (stacked : scopes.Stacked)
    (ran : (resolveRow schema names).run scopes = .ok (row, scopes')) :
    row.name ∈ scopes'.names := by
  obtain ⟨found, -, -⟩ := lookup_of_resolveRow ran
  obtain ⟨inside, -⟩ := List.getElem?_eq_some_iff.mp found.atLevel
  have opposite :
      found.start.level + (scopes.length - 1 - found.start.level) + 1 = scopes.length := by
    omega
  obtain ⟨scope, atHeight, leads⟩ := resolveRow_leadsTo stacked ran found.located opposite
  exact List.mem_flatMap.mpr
    ⟨scope, List.mem_reverse.mp (List.mem_of_getElem? atHeight), leads.mem_names⟩

/-- The select of a level is well scoped among the tables of the levels around it when its parts
name tables of these or of its own scope. -/
theorem LevelRun.wellScoped
    {e : Expr}
    {t : Term}
    {scopes scopes' : Scopes}
    (run : LevelRun schema e scopes t scopes')
    (built : run.last.Built)
    (grows : run.scope.Grows run.last)
    (namesBefore : run.parts.flatMap Term.names ⊆ scopes'.names)
    (namesInside : run.clauses.flatMap Term.names ⊆ Scopes.names (run.last :: scopes'))
    (nestedBefore : ∀ select ∈ run.parts.flatMap Term.nested, select.WellScoped scopes'.names)
    (nestedInside : ∀ select ∈ run.clauses.flatMap Term.nested,
      select.WellScoped (Scopes.names (run.last :: scopes'))) :
    run.select.WellScoped scopes'.names := by
  have own : run.last.names ⊆ run.select.declared := fun name member => by
    rw [Select.declared, run.sources_eq]
    exact built.mem_declared.mpr member
  have all : Scopes.names (run.last :: scopes') ⊆ scopes'.names ++ run.select.declared :=
    List.append_subset.mpr
      ⟨List.Subset.trans own (List.subset_append_right _ _), List.subset_append_left _ _⟩
  refine .intro (List.Subset.trans run.names_subset ?_) ?_ ?_
  · refine List.append_subset.mpr
      ⟨List.append_subset.mpr ⟨?_, List.Subset.trans namesInside all⟩, ?_⟩
    · exact List.Subset.trans namesBefore (List.subset_append_left _ _)
    · exact List.Subset.trans (List.Subset.trans grows.names_subset own)
        (List.subset_append_right _ _)
  · rw [run.sources_eq]
    exact built.ordered
  · rw [run.nested_in_eq]
    exact List.forall_mem_append.mpr
      ⟨fun select member => (nestedBefore select member).mono (List.subset_append_left _ _),
        fun select member => (nestedInside select member).mono all⟩

/-- What the terms of a course name are tables of the scopes at its end, and among these the selects
in the terms are well scoped. -/
theorem Runs.wellScoped
    {tasks : List Task}
    {scopes last : Scopes}
    {terms : List Term}
    (runs : Runs schema tasks scopes terms last) :
    terms.flatMap Term.names ⊆ last.names ∧
      ∀ select ∈ terms.flatMap Term.nested, select.WellScoped last.names := by
  induction runs with
  | nil => exact ⟨List.nil_subset _, fun _ member => nomatch member⟩
  | row stacked resolved _ later inductionLater =>
    obtain ⟨namesRest, nestedRest⟩ := inductionLater
    refine ⟨List.cons_subset.mpr ⟨?_, namesRest⟩, nestedRest⟩
    exact later.grow.names_subset (name_mem_of_resolveRow stacked resolved)
  | flat _ _ _ run _ _ later inductionInside inductionLater =>
    obtain ⟨namesInside, nestedInside⟩ := inductionInside
    obtain ⟨namesRest, nestedRest⟩ := inductionLater
    have fromNext := later.grow.names_subset
    rw [List.flatMap_cons, List.flatMap_cons]
    refine ⟨List.append_subset.mpr ⟨?_, namesRest⟩, List.forall_mem_append.mpr ⟨?_, nestedRest⟩⟩
    · exact List.Subset.trans (List.Subset.trans run.names_subset namesInside) fromNext
    · rw [run.nested_eq]
      exact fun select member => (nestedInside select member).mono fromNext
  | level _ _ run _ growLevel growNext _ inside later before within after =>
    obtain ⟨namesBefore, nestedBefore⟩ := before
    obtain ⟨namesInside, nestedInside⟩ := within
    obtain ⟨namesRest, nestedRest⟩ := after
    have fromBelow := growNext.names_subset
    have valid : run.select.WellScoped _ := run.wellScoped inside.stacked_last.1 growLevel
      (List.Subset.trans namesBefore fromBelow) namesInside
      (fun select member => (nestedBefore select member).mono fromBelow) nestedInside
    rw [List.flatMap_cons, List.flatMap_cons, run.names_eq, run.nested_eq]
    exact ⟨namesRest, List.forall_mem_append.mpr
      ⟨List.forall_mem_singleton.mpr (valid.mono later.grow.names_subset), nestedRest⟩⟩

/-- In the statement of a query each table that a select names, as the owner of a column or with
`.*`, is declared in the from list of that select or of one around it, and the `on` condition of a
join names its own table and tables declared before it in the same from item. -/
theorem wellScoped_of_toSelect
    (schema : Schema)
    (query : Query)
    (statement : Select)
    (ran : schema.toSelect query = .ok statement) : statement.WellScoped [] := by
  obtain ⟨last, ranAll⟩ := Query.run_of_toSelect ran
  have runs := runs_of_runInTurn Scopes.stacked_nil ranAll
  obtain rfl : last = [] := List.forall₂_nil_left_iff.mp runs.grow
  obtain ⟨-, nested⟩ := runs.wellScoped
  exact nested statement (by simp [Term.nested])

/-- `select Name from Person p where exists(select Name from Person where Name = p.Manager.Name)` -/
def sameNameAsManager : Query :=
  ⟨false, [⟨.path ⟨[], "Name"⟩, none⟩], [⟨"Person", some "p"⟩],
    some (.nonempty (.mk false [⟨.path ⟨[], "Name"⟩, none⟩] [⟨"Person", none⟩]
      (some (.relational .equal (.path ⟨[], "Name"⟩) (.path ⟨["p", "Manager"], "Name"⟩)))
      [] none [])), [], none, []⟩

/-- The nested select of `sameNameAsManager` names a table that is joined to the outer one. -/
theorem wellScoped_sameNameAsManager :
    ∃ statement, staffSchema.toSelect sameNameAsManager = .ok statement ∧
      statement.WellScoped [] := by
  obtain ⟨statement, ran⟩ : ∃ statement, staffSchema.toSelect sameNameAsManager = .ok statement :=
    exists_eq_ok (by cbv)
  exact ⟨statement, ran, wellScoped_of_toSelect staffSchema sameNameAsManager statement ran⟩

end ObjectQuery.Sql

import Mathlib
import ObjectQuery.Proofs.Sql.Alias
import ObjectQuery.Proofs.Sql.Points

/-!
Contract: one join for each chain of references.

Whatever the course of a translation, a scope has a join for each chain of references that a look-up
has gone along, in its own level or a nested one, and no others. The names of its tables differ from
one another and from those of the other levels.

Owns: the invariant of the scopes at every point of a translation, and the joins of a level at its
end.
-/

namespace ObjectQuery.Sql

variable {schema : Schema}

/-! ## Which joins there are -/

/-- Where a chain leads to a row, the shorter ones that it begins with lead to rows on the way. -/
theorem Scope.LeadsTo.of_prefix
    {scope : Scope}
    {place : Nat}
    {chain shorter : List String}
    {name : RowAlias}
    (leads : scope.LeadsTo place chain name)
    (begins : shorter <+: chain) : ∃ between, scope.LeadsTo place shorter between := by
  induction leads with
  | entry found =>
    obtain rfl := List.prefix_nil.mp begins
    exact ⟨_, .entry found⟩
  | join owner member same inductionHypothesis =>
    rcases List.prefix_concat_iff.mp begins with rfl | onWay
    · exact ⟨_, .join owner member same⟩
    · exact inductionHypothesis onWay

/-- What leads to a row at the end of a course did so at its start, or is a chain of references that
a look-up on the course goes along. -/
theorem Runs.leadsTo_cases
    {tasks : List Task}
    {scopes last : Scopes}
    {terms : List Term}
    (runs : Runs schema tasks scopes terms last)
    {height place : Nat}
    {chain : List String}
    {name : RowAlias}
    {later : Scope}
    (inside : height < scopes.length)
    (atHeight : last.level? height = some later)
    (leads : later.LeadsTo place chain name) :
    (∃ scope, scopes.level? height = some scope ∧ scope.LeadsTo place chain name) ∨
      ∃ names between, Meets schema tasks scopes (.row names) between ∧
        Dereferences schema between names height place chain := by
  induction runs generalizing later with
  | nil => exact .inl ⟨later, atHeight, leads⟩
  | row stacked resolved grow _ inductionLater =>
    rcases inductionLater (grow.length_eq ▸ inside) atHeight leads with
      ⟨scope, atNext, leadsNext⟩ | ⟨names, between, meets, along⟩
    · exact (resolveRow_leadsTo_cases stacked resolved atNext leadsNext).imp_right
        fun along => ⟨_, _, .here, along⟩
    · exact .inr ⟨names, between, .later (run_row_eq_ok.mpr ⟨_, resolved, rfl⟩) meets, along⟩
  | flat _ ran _ _ grow _ _ inductionInside inductionLater =>
    rcases inductionLater (grow.length_eq ▸ inside) atHeight leads with
      ⟨scope, atNext, leadsNext⟩ | ⟨names, between, meets, along⟩
    · exact (inductionInside inside atNext leadsNext).imp_right
        fun ⟨names, between, meets, along⟩ => ⟨names, between, .part meets, along⟩
    · exact .inr ⟨names, between, .later ran meets, along⟩
  | level _ ran run growBelow _ growNext _ _ _ inductionBefore inductionInside inductionLater =>
    have insideBelow := growBelow.length_eq ▸ inside
    have insideNext := growNext.length_eq ▸ insideBelow
    rcases inductionLater insideNext atHeight leads with
      ⟨scope, atNext, leadsNext⟩ | ⟨names, between, meets, along⟩
    · rcases inductionInside (Nat.lt_succ_of_lt insideBelow)
        ((Scopes.level?_cons insideNext).trans atNext) leadsNext with
        ⟨scope, atBelow, leadsBelow⟩ | ⟨names, between, meets, along⟩
      · rw [Scopes.level?_cons insideBelow] at atBelow
        exact (inductionBefore inside atBelow leadsBelow).imp_right
          fun ⟨names, between, meets, along⟩ => ⟨names, between, .part meets, along⟩
      · exact .inr ⟨names, between, .level run.opens meets, along⟩
    · exact .inr ⟨names, between, .later ran meets, along⟩

/-- A look-up on a course that runs to its end leads to its row in the end. -/
theorem Meets.leadsTo
    {tasks : List Task}
    {scopes between last : Scopes}
    {terms : List Term}
    {names : List String}
    (meets : Meets schema tasks scopes (.row names) between)
    (stacked : scopes.Stacked)
    (ran : (runInTurn schema tasks).run scopes = .ok (terms, last))
    {height : Nat}
    (inside : height < scopes.length)
    {start : Start}
    (located : locateRow schema between names = .ok start)
    (opposite : start.level + height + 1 = between.length) :
    ∃ row next later, (resolveRow schema names).run between = .ok (row, next) ∧
      last.level? height = some later ∧ later.LeadsTo start.entry start.names row.name := by
  obtain ⟨_, next, done, -, grows⟩ := meets.done stacked ran
  obtain ⟨row, resolved, -⟩ := run_row_eq_ok.mp done
  obtain ⟨scope, atNext, leads⟩ :=
    resolveRow_leadsTo (meets.stacked stacked) resolved located opposite
  obtain ⟨later, atLast, growsLater⟩ := grows height inside scope atNext
  exact ⟨row, next, later, resolved, atLast, leads.grows growsLater⟩

/-! ## Sound scopes -/

/-- The tables of a scope have different names, which are its stem with a number below the next one.
Each join is owned by its entry or by an earlier join of that entry, and belongs to one pair of an
owner and a field. -/
structure Scope.Sound (scope : Scope) : Prop where
  names_nodup : (scope.names.map (·.text)).Nodup
  names_numbered : ∀ name ∈ scope.names, ∃ number < scope.nextNumber,
    name.text = RowAlias.stem scope.depth ++ toString number
  owner_earlier : ∀ before join after, scope.joins = before ++ join :: after →
    (∃ entry, scope.entries[join.entry]? = some entry ∧ join.owner = entry.name) ∨
      ∃ earlier ∈ before, earlier.entry = join.entry ∧ earlier.name = join.owner
  joined_iff : ∀ owner field join, scope.joined? owner field = some join ↔
    join ∈ scope.joins ∧ join.owner = owner ∧ join.field.name = field
  keys_nodup : (scope.joins.map fun join => join.owner.text ++ "." ++ join.field.name).Nodup

/-- Each scope is sound, and their stems differ. -/
structure Scopes.Sound (scopes : Scopes) : Prop where
  each : ∀ scope ∈ scopes, scope.Sound
  stems_nodup : (scopes.map (RowAlias.stem ·.depth)).Nodup

theorem Scope.Built.sound {scope : Scope} (built : scope.Built) : scope.Sound where
  names_nodup := built.names_nodup.map RowAlias.text_injective
  names_numbered name member := by
    obtain ⟨sameDepth, below⟩ := built.names_numbered name member
    exact ⟨name.number, below, by rw [RowAlias.text, sameDepth]⟩
  owner_earlier _ _ _ split := built.owner_earlier split
  joined_iff _ _ _ := built.joined?_eq_some_iff
  keys_nodup := by
    rw [List.Nodup, List.pairwise_map]
    refine built.joins_pairwise.imp fun differs sameKey => ?_
    obtain ⟨sameOwner, sameField⟩ := RowAlias.dotted_injective sameKey
    exact differs ⟨sameOwner.symm, sameField.symm⟩

theorem Scopes.Stacked.depth_lt {scopes : Scopes} (stacked : scopes.Stacked) :
    ∀ scope ∈ scopes, scope.depth < scopes.length := by
  induction scopes with
  | nil => simp
  | cons first outer inductionHypothesis =>
    obtain ⟨-, depth, stackedOuter⟩ := stacked
    intro scope member
    rcases List.mem_cons.mp member with rfl | isOuter
    · exact depth ▸ Nat.lt_succ_self _
    · exact Nat.lt_succ_of_lt (inductionHypothesis stackedOuter scope isOuter)

theorem Scopes.Stacked.sound {scopes : Scopes} (stacked : scopes.Stacked) : scopes.Sound := by
  induction scopes with
  | nil => exact ⟨by simp, by simp⟩
  | cons first outer inductionHypothesis =>
    obtain ⟨built, depth, stackedOuter⟩ := stacked
    obtain ⟨each, nodup⟩ := inductionHypothesis stackedOuter
    refine ⟨List.forall_mem_cons.mpr ⟨built.sound, each⟩, List.nodup_cons.mpr ⟨?_, nodup⟩⟩
    intro isOuter
    obtain ⟨scope, member, sameStem⟩ := List.mem_map.mp isOuter
    have sameDepth := RowAlias.stem_injective sameStem
    exact absurd (stackedOuter.depth_lt scope member) (by omega)

/-! ## Shared joins -/

/-- The joins of a scope are those for the wanted pairs of an entry and a chain of references from
it, one for each, and what different chains lead to has different names. -/
structure Scope.Shares (scope : Scope) (wanted : Nat → List String → Prop) : Prop where
  join_of_chain : ∀ place chain, wanted place chain →
    ∃! join, join ∈ scope.joins ∧ join.entry = place ∧ scope.LeadsTo place chain join.name
  chain_of_join : ∀ join ∈ scope.joins,
    ∃ chain, wanted join.entry chain ∧ scope.LeadsTo join.entry chain join.name
  text_eq_iff : ∀ place chain name place' chain' name', scope.LeadsTo place chain name →
    scope.LeadsTo place' chain' name' → (name.text = name'.text ↔ place = place' ∧ chain = chain')

theorem Scope.Built.text_eq_iff
    {scope : Scope}
    (built : scope.Built)
    {place place' : Nat}
    {chain chain' : List String}
    {name name' : RowAlias}
    (leads : scope.LeadsTo place chain name)
    (leads' : scope.LeadsTo place' chain' name') :
    name.text = name'.text ↔ place = place' ∧ chain = chain' := by
  constructor
  · intro same
    obtain rfl := RowAlias.text_injective same
    exact leads.unique built.names_nodup leads'
  · rintro ⟨rfl, rfl⟩
    rw [built.leadsTo_row_unique leads leads']

namespace Level

variable {query : Query} (level : Level schema query)

/-- A look-up in the level, or in one nested in it, goes along a chain of references from an entry
of the level. -/
def Dereferences (place : Nat) (chain : List String) : Prop :=
  ∃ names scopes, level.Meets (.row names) scopes ∧
    Sql.Dereferences schema scopes names level.below.length place chain

variable {level}

theorem Ends.built {last : Scope} (ends : level.Ends last) :
    last.Built ∧ level.scope.Grows last ∧
      ∃ clauses later, (runInTurn schema level.body).run (level.scope :: level.below)
          = .ok (clauses, last :: later) ∧
        Scopes.level? (last :: later) level.below.length = some last := by
  obtain ⟨clauses, later, ran⟩ := ends
  have runs := runs_of_runInTurn level.stacked_inside ran
  obtain ⟨built, -, -⟩ := runs.stacked_last
  obtain ⟨grows, growOuter⟩ := List.forall₂_cons.mp runs.grow
  exact ⟨built, grows, clauses, later, ran, growOuter.length_eq ▸ Scopes.level?_head last later⟩

/-- In the end a level has the joins for the chains that were gone along. -/
theorem Ends.shares {last : Scope} (ends : level.Ends last) : last.Shares level.Dereferences := by
  obtain ⟨built, grows, clauses, later, ran, atEnd⟩ := ends.built
  have stacked := level.stacked_inside
  have inside : level.below.length < (level.scope :: level.below).length := Nat.lt_succ_self _
  refine ⟨?_, ?_, fun _ _ _ _ _ _ leads leads' => built.text_eq_iff leads leads'⟩
  · rintro place chain ⟨names, scopes, meets, start, located, opposite, rfl, nonempty, begins⟩
    obtain ⟨row, _, scope, -, atLast, leads⟩ :=
      Sql.Meets.leadsTo meets stacked ran inside located opposite
    obtain rfl := Option.some.inj (atEnd.symm.trans atLast)
    obtain ⟨name, leadsShort⟩ := leads.of_prefix begins
    rcases Scope.leadsTo_iff.mp leadsShort with
      ⟨_, _, isEmpty, _⟩ | ⟨_, join, _, member, sameEntry, _, rfl⟩
    · exact absurd isEmpty nonempty
    · refine ⟨join, ⟨member, sameEntry, leadsShort⟩, ?_⟩
      rintro other ⟨isOther, -, leadsOther⟩
      exact Scope.join_eq_of_name_eq built.names_nodup isOther member
        (built.leadsTo_row_unique leadsOther leadsShort)
  · intro join member
    obtain ⟨chain, leads, -⟩ := built.exists_leadsTo member
    refine ⟨_, ?_, leads⟩
    rcases (runs_of_runInTurn stacked ran).leadsTo_cases inside atEnd leads with
      ⟨scope, atStart, leadsBefore⟩ | along
    · -- A scope is opened without joins, so there only empty chains lead to a row.
      rw [Scopes.level?_head] at atStart
      obtain rfl := Option.some.inj atStart
      rcases Scope.leadsTo_iff.mp leadsBefore with ⟨_, _, isEmpty, _⟩ | ⟨_, _, _, isJoin, _⟩
      · simp at isEmpty
      · rw [level.opens.opened.1.no_joins] at isJoin
        cases isJoin
    · exact along

end Level

/-- At every point of the translation of a query the scopes are sound. When it succeeds, each select
of the statement is that of a level, and each level has, in its select, one join for each pair of an
entry and a chain of references that was gone along from there, in the level or in a nested one. All
look-ups of a pair are for the row of that join, whose name no other pair has. -/
theorem scopes_sound_and_joins_shared (schema : Schema) (query : Query) :
    (∀ scopes, query.Reaches schema scopes → scopes.Sound) ∧
      ∀ statement, schema.toSelect query = .ok statement →
        (∀ select, statement.Within select → ∃ level : Level schema query, level.Gives select) ∧
          ∀ level : Level schema query, ∃ select last,
            statement.Within select ∧ level.Gives select ∧ level.Ends last ∧
              select.sources = last.sources ∧ last.entries = level.scope.entries ∧
              last.Shares level.Dereferences ∧
              ∀ names scopes start, level.Meets (.row names) scopes →
                locateRow schema scopes names = .ok start →
                start.level + level.below.length + 1 = scopes.length →
                ∃ row next, (resolveRow schema names).run scopes = .ok (row, next) ∧
                  last.LeadsTo start.entry start.names row.name := by
  refine ⟨fun scopes reaches => reaches.stacked.sound, fun statement ran =>
    ⟨fun select within => Level.exists_gives ran within, fun level => ?_⟩⟩
  obtain ⟨t, next, done, within⟩ := level.met.done ran
  obtain ⟨run⟩ := exists_levelRun level.opens.opensLevel done
  obtain ⟨sameBelow, sameScope, sameBody⟩ := level.opens.unique run.opens
  have ends : level.Ends run.last := by
    rw [Level.Ends, sameBelow, sameScope, sameBody]
    exact ⟨run.clauses, next, run.inside⟩
  obtain ⟨-, grows, clauses, later, ranBody, atEnd⟩ := ends.built
  refine ⟨run.select, run.last, within _ (by simp [run.nested_eq]), ⟨t, next, done, run.nested_eq⟩,
    ends, run.sources_eq, grows.entries_eq, ends.shares, ?_⟩
  intro names scopes start meets located opposite
  obtain ⟨row, next, scope, resolved, atLast, leads⟩ :=
    Sql.Meets.leadsTo meets level.stacked_inside ranBody (Nat.lt_succ_self _) located opposite
  obtain rfl := Option.some.inj (atEnd.symm.trans atLast)
  exact ⟨row, next, resolved, leads⟩

/-! ### Managers of managers -/

/-- People who may have a manager. -/
def staffSchema : Schema :=
  ⟨[("Person",
      (ClassDef.stored "Person" "person").withPrimaryKey "Id" "id"
        |>.withField (.plain "Name" "name" .string)
        |>.withField (.reference "Manager" "manager_id" "Person"))]⟩

/-- `select Manager.Name from Person where Manager.Manager.Name = Name` -/
def managersQuery : Query :=
  ⟨false, [⟨.path ⟨["Manager"], "Name"⟩, none⟩], [⟨"Person", none⟩],
    some (.relational .equal (.path ⟨["Manager", "Manager"], "Name"⟩) (.path ⟨[], "Name"⟩)), [],
    none, []⟩

/-- The scope of `managersQuery` before anything is joined. -/
def managersScope : Scope :=
  (Scope.empty 0).addEntry (some "Person") none "person"

/-- The only level of `managersQuery`. -/
def managersLevel : Level staffSchema managersQuery where
  role := .value
  node := .query managersQuery
  before := []
  below := []
  scope := managersScope
  body := managersQuery.tasks
  met := .here
  opens := .query (List.cons_ne_nil _ _)
    (show addSources staffSchema (.empty 0) managersQuery.sources = .ok (managersScope, []) by cbv)

/-- Both paths of `managersQuery` that begin with `Manager` use one join. -/
theorem managers_joined_once :
    Scopes.Sound [managersScope] ∧
      ∃ statement last row next, staffSchema.toSelect managersQuery = .ok statement ∧
        managersLevel.Dereferences 0 ["Manager"] ∧ managersLevel.Ends last ∧
          (∃! join, join ∈ last.joins ∧ join.entry = 0 ∧ last.LeadsTo 0 ["Manager"] join.name) ∧
            (resolveRow staffSchema ["Manager"]).run [managersScope] = .ok (row, next) ∧
              last.LeadsTo 0 ["Manager"] row.name := by
  obtain ⟨sound, translated⟩ := scopes_sound_and_joins_shared staffSchema managersQuery
  obtain ⟨statement, ran⟩ : ∃ statement, staffSchema.toSelect managersQuery = .ok statement :=
    exists_eq_ok (by cbv)
  have located :
      locateRow staffSchema [managersScope] ["Manager"] = .ok ⟨0, 0, ["Manager"]⟩ := by cbv
  have meets : managersLevel.Meets (.row ["Manager"]) [managersScope] := .part .here
  have along : managersLevel.Dereferences 0 ["Manager"] :=
    ⟨_, _, meets, _, located, rfl, rfl, List.cons_ne_nil _ _, List.prefix_refl _⟩
  obtain ⟨-, levels⟩ := translated statement ran
  obtain ⟨select, last, -, -, ends, -, -, shares, rows⟩ := levels managersLevel
  obtain ⟨row, next, resolved, leads⟩ := rows _ _ _ meets located rfl
  exact ⟨sound _ ⟨_, _, .here, .opened managersLevel.opens⟩, statement, last, row, next, ran,
    along, ends, shares.join_of_chain 0 ["Manager"] along, resolved, leads⟩

end ObjectQuery.Sql

import ObjectQuery.Proofs.Expr.Parts
import ObjectQuery.Proofs.Sql.Frames

/-!
Contract: a translation fails by the schema or not at all.

Names are looked up in scopes that have a root, so a look-up always finds a row to start from. What
is left to go wrong is that the schema lacks a class, a field, a collection, a table or a key.

Owns: `FailsBySchema`, and that the translation of a query fails in no other way.

Does not own: when it fails.
-/

namespace ObjectQuery.Sql

/-- Every failure is one of the schema. -/
def FailsBySchema {α : Type} (outcome : Except Error α) : Prop :=
  ∀ error, outcome = .error error → error.kind = .schemaResolution

namespace FailsBySchema

variable {α β : Type}

theorem of_ok (value : α) : FailsBySchema (.ok value) := by
  rintro _ ⟨⟩

theorem of_error {error : Error} (kind : error.kind = .schemaResolution) :
    FailsBySchema (.error error : Except Error α) := by
  rintro _ ⟨⟩
  exact kind

theorem bind {first : Except Error α} {next : α → Except Error β}
    (ofFirst : FailsBySchema first)
    (ofNext : ∀ value, first = .ok value → FailsBySchema (next value)) :
    FailsBySchema (first >>= next) := by
  cases first with
  | error error =>
    rintro _ ⟨⟩
    exact ofFirst error rfl
  | ok value => exact ofNext value rfl

end FailsBySchema

/-! ## The schema -/

section

variable {schema : Schema}

theorem failsBySchema_require (key : String) : FailsBySchema (schema.require key) := by
  unfold Schema.require
  split
  · exact .of_ok _
  · exact .of_error rfl

theorem failsBySchema_requireField (key name : String) :
    FailsBySchema (schema.requireField key name) := by
  refine (failsBySchema_require key).bind fun _ _ => ?_
  split
  · exact .of_ok _
  · exact .of_error rfl

theorem failsBySchema_requireCollection (key name : String) :
    FailsBySchema (schema.requireCollection key name) := by
  refine (failsBySchema_require key).bind fun _ _ => ?_
  split
  · exact .of_ok _
  · exact .of_error rfl

theorem failsBySchema_requireTable (key : String) : FailsBySchema (requireTable schema key) := by
  unfold requireTable
  split
  · exact .of_ok _
  · exact .of_error rfl

theorem failsBySchema_requireKeyColumn (key : String) :
    FailsBySchema (requireKeyColumn schema key) := by
  unfold requireKeyColumn
  split
  · exact .of_ok _
  · exact .of_error rfl

theorem failsBySchema_restrictionOf (name : RowAlias) (key : String) :
    FailsBySchema (restrictionOf schema name key) := by
  unfold restrictionOf
  split
  · split
    · exact .of_ok _
    · exact .of_error rfl
  · exact .of_ok _

theorem failsBySchema_resolveFrom (owner : String) (before names : List String) :
    FailsBySchema (schema.resolveFrom owner before names) := by
  induction names generalizing owner before with
  | nil => exact .of_ok _
  | cons name rest inductionHypothesis =>
    refine (failsBySchema_requireField owner name).bind fun field _ => ?_
    split
    · exact .of_error rfl
    · refine (failsBySchema_require _).bind fun target _ => ?_
      exact (inductionHypothesis _ _).bind fun _ _ => .of_ok _

theorem failsBySchema_resolveReferences (root : String) (names : List String) :
    FailsBySchema (schema.resolveReferences root names) :=
  (failsBySchema_require root).bind fun _ _ => failsBySchema_resolveFrom root [] names

theorem failsBySchema_addSources (start : Scope) (items : List FromItem) :
    FailsBySchema (addSources schema start items) := by
  induction items generalizing start with
  | nil => exact .of_ok _
  | cons item rest inductionHypothesis =>
    refine (failsBySchema_require _).bind fun _ _ => ?_
    refine (failsBySchema_requireTable _).bind fun table _ => ?_
    refine (failsBySchema_restrictionOf _ _).bind fun restriction _ => ?_
    exact (inductionHypothesis _).bind fun _ _ => .of_ok _

theorem failsBySchema_membership
    (depth : Nat)
    (collection : CollectionDef)
    (key : ColumnRef)
    (elementsMatter : Bool) :
    FailsBySchema (membership schema depth collection key elementsMatter) := by
  unfold membership
  split
  · refine (failsBySchema_requireTable _).bind fun table _ => ?_
    exact (failsBySchema_requireField _ _).bind fun _ _ => .of_ok _
  · split
    · refine (failsBySchema_requireTable _).bind fun table _ => ?_
      exact (failsBySchema_requireKeyColumn _).bind fun _ _ => .of_ok _
    · exact .of_ok _

theorem failsBySchema_memberConditions (member : Option Row) (wanted : Option Term) :
    FailsBySchema (memberConditions schema member wanted) := by
  unfold memberConditions
  split
  · exact .of_ok _
  · refine (failsBySchema_restrictionOf _ _).bind fun restriction _ => ?_
    split
    · exact .of_ok _
    · exact (failsBySchema_requireKeyColumn _).bind fun _ _ => .of_ok _

end

/-! ## Scopes with a root -/

/-- Every scope has an entry that bare names belong to. -/
def Scopes.Rooted (scopes : Scopes) : Prop :=
  ∀ scope ∈ scopes, scope.rootClass?.isSome

/-- In these scopes a computation fails by the schema, or leaves as many scopes, all with a root. -/
structure KeepsRoots {α : Type} (computation : Scoped α) (scopes : Scopes) : Prop where
  failure : FailsBySchema (computation.run scopes)
  rooted : ∀ value later, computation.run scopes = .ok (value, later) → later.Rooted
  length_eq : ∀ value later, computation.run scopes = .ok (value, later) →
    later.length = scopes.length

namespace KeepsRoots

variable {α β : Type} {scopes : Scopes}

theorem bind {first : Scoped α} {next : α → Scoped β}
    (ofFirst : KeepsRoots first scopes)
    (ofNext : ∀ value later, later.Rooted → later.length = scopes.length →
      KeepsRoots (next value) later) :
    KeepsRoots (first >>= next) scopes := by
  have ran_next (value : α) (between : Scopes) (ran : first.run scopes = .ok (value, between)) :
      KeepsRoots (next value) between :=
    ofNext value between (ofFirst.rooted _ _ ran) (ofFirst.length_eq _ _ ran)
  refine ⟨?_, fun result later ran => ?_, fun result later ran => ?_⟩
  · rw [StateT.run_bind]
    exact ofFirst.failure.bind fun pair ran => (ran_next pair.1 pair.2 ran).failure
  · obtain ⟨value, between, ranFirst, ranNext⟩ := run_bind_eq_ok.mp ran
    exact (ran_next value between ranFirst).rooted _ _ ranNext
  · obtain ⟨value, between, ranFirst, ranNext⟩ := run_bind_eq_ok.mp ran
    exact ((ran_next value between ranFirst).length_eq _ _ ranNext).trans
      (ofFirst.length_eq _ _ ranFirst)

variable (rooted : scopes.Rooted)

include rooted

theorem lift {step : Except Error α} (ofStep : FailsBySchema step) :
    KeepsRoots (liftM step : Scoped α) scopes := by
  refine ⟨?_, fun value later ran => ?_, fun value later ran => ?_⟩
  · cases step with
    | ok value => exact .of_ok _
    | error error => exact .of_error (ofStep error rfl)
  · exact (run_lift_eq_ok.mp ran).2 ▸ rooted
  · rw [(run_lift_eq_ok.mp ran).2]

theorem pure (value : α) : KeepsRoots (pure value : Scoped α) scopes :=
  lift rooted (.of_ok value)

omit rooted in
/-- A step of the schema leaves the scopes as they are. -/
theorem lift_bind {step : Except Error α} {next : α → Scoped β}
    (ofStep : FailsBySchema step)
    (ofNext : ∀ value, step = .ok value → KeepsRoots (next value) scopes) :
    KeepsRoots (liftM step >>= next) scopes := by
  cases step with
  | ok value =>
    have same := ofNext value rfl
    exact ⟨same.failure, same.rooted, same.length_eq⟩
  | error error => exact ⟨.of_error (ofStep error rfl), by rintro _ _ ⟨⟩, by rintro _ _ ⟨⟩⟩

theorem throw {error : Error} (kind : error.kind = .schemaResolution) :
    KeepsRoots (throw error : Scoped α) scopes :=
  lift rooted (.of_error kind)

omit rooted in
theorem get_bind {next : Scopes → Scoped β} (ofNext : KeepsRoots (next scopes) scopes) :
    KeepsRoots (get >>= next) scopes :=
  ⟨ofNext.failure, ofNext.rooted, ofNext.length_eq⟩

omit rooted in
theorem modify {change : Scopes → Scopes}
    (rooted : (change scopes).Rooted)
    (sameLength : (change scopes).length = scopes.length) :
    KeepsRoots (modify change : Scoped PUnit) scopes := by
  refine ⟨.of_ok _, fun value later ran => ?_, fun value later ran => ?_⟩ <;>
    obtain ⟨-, rfl⟩ := Prod.mk.inj (Except.ok.inj ran)
  · exact rooted
  · exact sameLength

/-- A computation runs in one more scope that has a root. -/
theorem within {scope : Scope} {body : Scoped α}
    (ofScope : scope.rootClass?.isSome)
    (ofBody : Scopes.Rooted (scope :: scopes) → KeepsRoots body (scope :: scopes)) :
    KeepsRoots (within scope body) scopes := by
  have inside := ofBody (List.forall_mem_cons.mpr ⟨ofScope, rooted⟩)
  refine ⟨?_, ?_, ?_⟩
  · rw [Sql.within, StateT.run_bind, StateT.run_modify, pure_eq_ok, ok_bind, StateT.run_bind]
    refine inside.failure.bind ?_
    rintro ⟨result, later⟩ ran
    -- no scope was taken off inside, so there is one to take off
    have longer := inside.length_eq _ _ ran
    cases later with
    | nil => cases longer
    | cons inner outer => exact .of_ok _
  · rintro ⟨inner, result⟩ later ran
    have all := inside.rooted _ _ (run_within_eq_ok.mp ran)
    exact (List.forall_mem_cons.mp all).2
  · rintro ⟨inner, result⟩ later ran
    have longer := inside.length_eq _ _ (run_within_eq_ok.mp ran)
    simpa using longer

end KeepsRoots

variable {schema : Schema} {scopes : Scopes}

/-! ## Rows -/

/-- The entry of a level at a place. -/
def Scopes.entryAt? (scopes : Scopes) (level place : Nat) : Option Entry :=
  scopes[level]?.bind (·.entries[place]?)

theorem isSome_entryAt?_of_enclosing? {name : String} {level place : Nat}
    (found : enclosing? name scopes = some (level, place)) :
    (scopes.entryAt? level place).isSome := by
  induction scopes generalizing level with
  | nil => cases found
  | cons scope outer inductionHypothesis =>
    rw [enclosing?] at found
    split at found
    · next here =>
      obtain ⟨rfl, rfl⟩ := Prod.mk.inj (Option.some.inj found)
      obtain ⟨-, ofClass⟩ := Option.filter_eq_some_iff.mp here
      obtain ⟨_, isEntry, -⟩ := Option.bind_eq_some_iff.mp (Option.eq_some_of_isSome ofClass)
      exact Option.isSome_of_mem isEntry
    · obtain ⟨⟨level', place'⟩, foundOuter, same⟩ := Option.map_eq_some_iff.mp found
      obtain ⟨rfl, rfl⟩ := Prod.mk.inj same
      exact inductionHypothesis foundOuter

/-- A chain of names starts at an entry. -/
theorem exists_entry_of_locateRow (names : List String)
    (rooted : scopes.Rooted)
    (some_scope : scopes ≠ []) :
    ∃ start, locateRow schema scopes names = .ok start ∧
      (scopes.entryAt? start.level start.entry).isSome := by
  obtain ⟨scope, outer, rfl⟩ := List.exists_cons_of_ne_nil some_scope
  obtain ⟨className, ofRoot⟩ := Option.isSome_iff_exists.mp (rooted scope List.mem_cons_self)
  have atRoot : (Scopes.entryAt? (scope :: outer) 0 scope.root).isSome := by
    obtain ⟨_, isEntry, -⟩ := Option.bind_eq_some_iff.mp ofRoot
    exact Option.isSome_of_mem isEntry
  cases names with
  | nil => exact ⟨_, rfl, atRoot⟩
  | cons first rest =>
    simp only [locateRow, ofRoot]
    cases labelled : scope.labelled? first with
    | some place =>
      obtain ⟨inside, -⟩ := List.findIdx?_eq_some_iff_getElem.mp labelled
      exact ⟨_, rfl, Option.isSome_of_mem (List.getElem?_eq_getElem inside)⟩
    | none =>
      cases (schema.field? className first).isSome with
      | true => exact ⟨_, rfl, atRoot⟩
      | false =>
        cases found : enclosing? first (scope :: outer) with
        | some _ => exact ⟨_, rfl, isSome_entryAt?_of_enclosing? found⟩
        | none => exact ⟨_, rfl, atRoot⟩

/-- A joined table leaves the root as it is. -/
theorem Scopes.Rooted.modify (rooted : scopes.Rooted) (level : Nat) (join : JoinedRow) :
    Scopes.Rooted (scopes.modify level (·.addJoin join)) :=
  Scopes.forall_mem_modify rooted fun _ old => old

theorem keepsRoots_joinStep (level entry : Nat) (owner : RowAlias) (step : Step)
    (rooted : scopes.Rooted)
    (inside : level < scopes.length) :
    KeepsRoots (joinStep schema level entry owner step) scopes := by
  refine .get_bind ?_
  rw [List.getElem?_eq_getElem inside]
  dsimp only
  split
  · exact .pure rooted _
  · refine .lift_bind (failsBySchema_requireTable _) fun table _ => ?_
    refine .lift_bind (failsBySchema_requireKeyColumn _) fun key _ => ?_
    refine .lift_bind (failsBySchema_restrictionOf _ _) fun restriction _ => ?_
    refine (KeepsRoots.modify (rooted.modify level _) (List.length_modify _ _ _)).bind ?_
    exact fun _ _ rooted _ => .pure rooted _

theorem keepsRoots_joinAlong (level entry : Nat) (owner : RowAlias) (steps : List Step)
    (rooted : scopes.Rooted)
    (inside : level < scopes.length) :
    KeepsRoots (joinAlong schema level entry owner steps) scopes := by
  induction steps generalizing owner scopes with
  | nil => exact .pure rooted owner
  | cons step rest inductionHypothesis =>
    refine (keepsRoots_joinStep level entry owner step rooted inside).bind ?_
    intro next later rootedLater sameLength
    exact inductionHypothesis next rootedLater (sameLength ▸ inside)

theorem keepsRoots_resolveRow (names : List String)
    (rooted : scopes.Rooted)
    (some_scope : scopes ≠ []) :
    KeepsRoots (resolveRow schema names) scopes := by
  obtain ⟨start, located, some_entry⟩ :=
    @exists_entry_of_locateRow schema scopes names rooted some_scope
  obtain ⟨entry, atStart⟩ := Option.isSome_iff_exists.mp some_entry
  obtain ⟨scope, atLevel, -⟩ := Option.bind_eq_some_iff.mp atStart
  obtain ⟨inside, -⟩ := List.getElem?_eq_some_iff.mp atLevel
  refine .get_bind ?_
  rw [Scopes.entryAt?] at atStart
  refine .lift_bind (located ▸ .of_ok start) fun value ran => ?_
  obtain rfl := Except.ok.inj (located.symm.trans ran)
  simp only [atStart]
  split
  · exact .throw rooted rfl
  · refine .lift_bind (failsBySchema_resolveReferences _ _) fun steps _ => ?_
    refine (keepsRoots_joinAlong _ _ _ _ rooted inside).bind ?_
    exact fun _ _ rooted _ => .pure rooted _

theorem keepsRoots_resolveColumn (path : Path)
    (rooted : scopes.Rooted)
    (some_scope : scopes ≠ []) :
    KeepsRoots (resolveColumn schema path) scopes := by
  refine (keepsRoots_resolveRow path.owner rooted some_scope).bind fun row _ rooted _ => ?_
  exact .lift_bind (failsBySchema_requireField _ _) fun field _ => .pure rooted _

theorem keepsRoots_resolveCollection (owner : List String) (collection : String)
    (rooted : scopes.Rooted)
    (some_scope : scopes ≠ []) :
    KeepsRoots (resolveCollection schema owner collection) scopes := by
  refine (keepsRoots_resolveRow owner rooted some_scope).bind fun row _ rooted _ => ?_
  refine .lift_bind (failsBySchema_requireCollection _ _) fun found _ => ?_
  exact .lift_bind (failsBySchema_requireKeyColumn _) fun key _ => .pure rooted _

/-! ## Expressions -/

/-- Wherever there is a scope, the translation of an expression keeps the roots. -/
def Roots (schema : Schema) (e : Expr) : Prop :=
  ∀ role (scopes : Scopes), scopes.Rooted → scopes ≠ [] → KeepsRoots (e.toTerm schema role) scopes

theorem ne_nil_of_length_eq {later : Scopes} (some_scope : scopes ≠ [])
    (sameLength : later.length = scopes.length) : later ≠ [] := by
  rintro rfl
  exact some_scope (List.length_eq_zero_iff.mp sameLength.symm)

section

variable (rooted : scopes.Rooted) (some_scope : scopes ≠ [])

include rooted some_scope

theorem keepsRoots_toTerms {es : List Expr} (each : ∀ e ∈ es, Roots schema e) :
    KeepsRoots (Expr.toTerms schema es) scopes := by
  induction es generalizing scopes with
  | nil => exact .pure rooted _
  | cons e rest inductionHypothesis =>
    obtain ⟨first, others⟩ := List.forall_mem_cons.mp each
    refine (first .value scopes rooted some_scope).bind fun t _ rooted sameLength => ?_
    refine (inductionHypothesis rooted (ne_nil_of_length_eq some_scope sameLength) others).bind ?_
    exact fun _ _ rooted _ => .pure rooted _

theorem keepsRoots_toArguments {es : List Expr} (each : ∀ e ∈ es, Roots schema e) :
    KeepsRoots (Expr.toArguments schema es) scopes := by
  induction es generalizing scopes with
  | nil => exact .pure rooted _
  | cons e rest inductionHypothesis =>
    obtain ⟨first, others⟩ := List.forall_mem_cons.mp each
    have remaining (t : Term) {later : Scopes} (rooted : later.Rooted) (some_scope : later ≠ []) :
        KeepsRoots (do pure (t :: (← Expr.toArguments schema rest))) later :=
      (inductionHypothesis rooted some_scope others).bind fun _ _ rooted _ => .pure rooted _
    rw [Expr.toArguments]
    cases e.isBareAsterisk with
    | true => exact remaining .allColumns rooted some_scope
    | false =>
      refine (first .value scopes rooted some_scope).bind fun t _ rooted sameLength => ?_
      exact remaining t rooted (ne_nil_of_length_eq some_scope sameLength)

theorem keepsRoots_toOption {e : Option Expr} (each : ∀ part ∈ e.toList, Roots schema part) :
    KeepsRoots (Expr.toOption schema e) scopes := by
  cases e with
  | none => exact .pure rooted _
  | some e =>
    refine (each e (List.mem_singleton_self _) .condition scopes rooted some_scope).bind ?_
    exact fun _ _ rooted _ => .pure rooted _

theorem keepsRoots_toItems {items : List SelectItem}
    (each : ∀ e ∈ items.map (·.expression), Roots schema e) :
    KeepsRoots (SelectItem.toItems schema items) scopes := by
  induction items generalizing scopes with
  | nil => exact .pure rooted _
  | cons item rest inductionHypothesis =>
    obtain ⟨expression, label⟩ := item
    obtain ⟨first, others⟩ := List.forall_mem_cons.mp each
    refine (first .value scopes rooted some_scope).bind fun t _ rooted sameLength => ?_
    refine (inductionHypothesis rooted (ne_nil_of_length_eq some_scope sameLength) others).bind ?_
    exact fun _ _ rooted _ => .pure rooted _

theorem keepsRoots_toKeys {items : List OrderItem}
    (each : ∀ e ∈ items.map (·.expression), Roots schema e) :
    KeepsRoots (OrderItem.toKeys schema items) scopes := by
  induction items generalizing scopes with
  | nil => exact .pure rooted _
  | cons item rest inductionHypothesis =>
    obtain ⟨expression, ascending⟩ := item
    obtain ⟨first, others⟩ := List.forall_mem_cons.mp each
    refine (first .value scopes rooted some_scope).bind fun t _ rooted sameLength => ?_
    refine (inductionHypothesis rooted (ne_nil_of_length_eq some_scope sameLength) others).bind ?_
    exact fun _ _ rooted _ => .pure rooted _

end

/-- A query needs no scope around it. -/
theorem keepsRoots_toSelect {q : Query}
    (rooted : scopes.Rooted)
    (each : ∀ e ∈ q.clauses, Roots schema e) :
    KeepsRoots (q.toSelect schema) scopes := by
  obtain ⟨distinct, select, sources, condition, groupBy, having, orderBy⟩ := q
  simp only [Query.clauses, List.forall_mem_append] at each
  obtain ⟨⟨⟨⟨ofItems, ofFilter⟩, ofGroups⟩, ofHaving⟩, ofKeys⟩ := each
  rw [Query.toSelect]
  cases sources with
  | nil => exact .throw rooted rfl
  | cons first rest =>
    refine .get_bind ?_
    refine .lift_bind (failsBySchema_addSources _ _) ?_
    rintro ⟨scope, restrictions⟩ added
    have ofScope : scope.rootClass?.isSome := Option.isSome_of_mem (fits_of_addSources added).root_eq
    refine (KeepsRoots.within rooted ofScope fun rooted => ?_).bind fun _ _ rooted _ =>
      .pure rooted _
    have some_scope : scope :: scopes ≠ [] := List.cons_ne_nil _ _
    refine (keepsRoots_toItems rooted some_scope ofItems).bind fun items _ rooted same => ?_
    have some_scope := ne_nil_of_length_eq some_scope same
    refine (keepsRoots_toOption rooted some_scope ofFilter).bind fun filter _ rooted same => ?_
    have some_scope := ne_nil_of_length_eq some_scope same
    refine (keepsRoots_toTerms rooted some_scope ofGroups).bind fun groups _ rooted same => ?_
    have some_scope := ne_nil_of_length_eq some_scope same
    refine (keepsRoots_toOption rooted some_scope ofHaving).bind fun kept _ rooted same => ?_
    have some_scope := ne_nil_of_length_eq some_scope same
    exact (keepsRoots_toKeys rooted some_scope ofKeys).bind fun _ _ rooted _ => .pure rooted _

/-- Two operands one after the other. -/
theorem keepsRoots_pair {left right : Expr} {role : Role} {finish : Term → Term → Term}
    (rooted : scopes.Rooted)
    (some_scope : scopes ≠ [])
    (ofLeft : Roots schema left)
    (ofRight : Roots schema right) :
    KeepsRoots (do
      let l ← left.toTerm schema role
      let r ← right.toTerm schema role
      pure (finish l r)) scopes := by
  refine (ofLeft role scopes rooted some_scope).bind fun l _ rooted same => ?_
  refine (ofRight role _ rooted (ne_nil_of_length_eq some_scope same)).bind ?_
  exact fun _ _ rooted _ => .pure rooted _

theorem roots_relational (op : RelationalOp) {left right : Expr}
    (ofLeft : Roots schema left)
    (ofRight : Roots schema right) : Roots schema (.relational op left right) := by
  intro role scopes rooted some_scope
  rw [Expr.toTerm]
  split
  · split
    · exact (ofLeft .plain scopes rooted some_scope).bind fun _ _ rooted _ => .pure rooted _
    · exact (ofRight .plain scopes rooted some_scope).bind fun _ _ rooted _ => .pure rooted _
  · exact keepsRoots_pair rooted some_scope ofLeft ofRight

theorem roots_oneOf {operand : Expr} {candidates : List Expr}
    (ofOperand : Roots schema operand)
    (ofCandidates : ∀ e ∈ candidates, Roots schema e) :
    Roots schema (.oneOf operand candidates) := by
  intro role scopes rooted some_scope
  rw [Expr.toTerm]
  split
  · exact .pure rooted _
  · refine (ofOperand .value scopes rooted some_scope).bind fun o _ rooted same => ?_
    have some_scope := ne_nil_of_length_eq some_scope same
    exact (keepsRoots_toTerms rooted some_scope ofCandidates).bind
      fun _ _ rooted _ => .pure rooted _

theorem roots_count (owner : List String) (collection : String) :
    Roots schema (.count owner collection) := by
  intro role scopes rooted some_scope
  refine (keepsRoots_resolveCollection owner collection rooted some_scope).bind ?_
  rintro ⟨found, key⟩ scopes rooted -
  refine .get_bind (.lift_bind (failsBySchema_membership _ _ _ _) fun setup _ => ?_)
  exact .lift_bind (failsBySchema_memberConditions _ _) fun kept _ => .pure rooted _

/-- A condition on the elements is translated in a scope for them, a value in the scopes at hand. -/
theorem roots_contains (owner : List String) (collection : String) {element : Expr}
    (ofElement : Roots schema element) : Roots schema (.contains owner collection element) := by
  intro role scopes rooted some_scope
  rw [Expr.toTerm]
  refine (keepsRoots_resolveCollection owner collection rooted some_scope).bind ?_
  rintro ⟨found, key⟩ scopes rooted same
  have some_scope := ne_nil_of_length_eq some_scope same
  dsimp only
  split
  · refine .get_bind (.lift_bind (failsBySchema_membership _ _ _ _) fun setup opened => ?_)
    refine .lift_bind (failsBySchema_memberConditions _ _) fun kept _ => ?_
    obtain ⟨-, fits⟩ := fits_of_membership opened
    refine (KeepsRoots.within rooted (Option.isSome_of_mem (fits rfl).root_eq) ?_).bind
      fun _ _ rooted _ => .pure rooted _
    exact fun rooted => ofElement .plain _ rooted (List.cons_ne_nil _ _)
  · refine (ofElement .value scopes rooted some_scope).bind fun wanted _ rooted _ => ?_
    refine .get_bind (.lift_bind (failsBySchema_membership _ _ _ _) fun setup _ => ?_)
    exact .lift_bind (failsBySchema_memberConditions _ _) fun kept _ => .pure rooted _

theorem roots (e : Expr) : Roots schema e := by
  induction e using Expr.parts_induction with
  | step e each =>
    intro role scopes rooted some_scope
    have select_pure {q : Query} (each : ∀ part ∈ q.clauses, Roots schema part)
        (finish : Select → Term) :
        KeepsRoots (do pure (finish (← q.toSelect schema))) scopes :=
      (keepsRoots_toSelect rooted each).bind fun _ _ rooted _ => .pure rooted _
    cases e with
    | literal _ | parameter _ _ | raw _ | boolean _ =>
      exact .pure rooted _
    | path p =>
      exact (keepsRoots_resolveColumn p rooted some_scope).bind fun _ _ rooted _ => .pure rooted _
    | asterisk owner | classTag owner =>
      exact (keepsRoots_resolveRow owner rooted some_scope).bind fun _ _ rooted _ => .pure rooted _
    | binary _ left right | and left right | or left right =>
      exact keepsRoots_pair rooted some_scope (each left List.mem_cons_self)
        (each right (List.mem_cons_of_mem _ List.mem_cons_self))
    | negate operand | not operand | nullTest operand _ =>
      exact (each operand List.mem_cons_self _ scopes rooted some_scope).bind
        fun _ _ rooted _ => .pure rooted _
    | call _ arguments =>
      rw [Expr.parts_call] at each
      exact (keepsRoots_toArguments rooted some_scope each).bind
        fun _ _ rooted _ => .pure rooted _
    | relational op left right =>
      exact roots_relational op (each left List.mem_cons_self)
        (each right (List.mem_cons_of_mem _ List.mem_cons_self)) role scopes rooted some_scope
    | oneOf operand candidates =>
      rw [Expr.parts_oneOf] at each
      obtain ⟨ofOperand, ofCandidates⟩ := List.forall_mem_cons.mp each
      exact roots_oneOf ofOperand ofCandidates role scopes rooted some_scope
    | query q | nonempty q =>
      exact select_pure (fun part member => each part (List.mem_append_right _ member)) _
    | count owner collection => exact roots_count owner collection role scopes rooted some_scope
    | contains owner collection element =>
      have ofElement := each element (Expr.parts_contains ▸ List.mem_cons_self)
      exact roots_contains owner collection ofElement role scopes rooted some_scope

/-- The translation of a query fails by the schema or not at all. -/
theorem failsBySchema_toSelect (q : Query) : FailsBySchema (schema.toSelect q) := by
  have ran : KeepsRoots (q.toSelect schema) [] :=
    keepsRoots_toSelect (List.forall_mem_nil _) fun e _ => roots e
  exact ran.failure.bind fun _ _ => .of_ok _

end ObjectQuery.Sql

import ObjectQuery.Proofs.Schema.Resolution
import ObjectQuery.Proofs.Sql.Joins
import ObjectQuery.Proofs.Sql.Scoped

/-!
Contract: the scopes of all levels while rows are looked up.

A look-up works in the scope of one level. It goes along the references that were named, from join
to join, and adds the joins that are missing.

Owns:
- `Scopes.Stacked` and `Scopes.Grow`, the invariant of the scopes and what they may gain;
- `Scopes.level?`, the scope of a level counted from the outermost;
- `Dereferences`, the chains of references that a look-up goes along.

Does not own: which rows are looked up.
-/

namespace ObjectQuery.Sql

/-! ## All levels -/

namespace Scopes

/-- Each scope is one that comes about, and its depth tells how many scopes enclose it. -/
def Stacked : Scopes → Prop
  | [] => True
  | scope :: outer => scope.Built ∧ scope.depth = outer.length ∧ Stacked outer

/-- Each scope has grown or is as it was. -/
abbrev Grow (scopes later : Scopes) : Prop :=
  List.Forall₂ Scope.Grows scopes later

/-- The scope of a level, counted from the outermost. -/
def level? (scopes : Scopes) (height : Nat) : Option Scope :=
  scopes.reverse[height]?

theorem stacked_nil : Stacked [] :=
  trivial

theorem Grow.refl (scopes : Scopes) : scopes.Grow scopes :=
  List.forall₂_same.mpr fun scope _ => Scope.Grows.refl scope

theorem Grow.trans {scopes between later : Scopes}
    (first : scopes.Grow between) (second : between.Grow later) : scopes.Grow later := by
  induction first generalizing later with
  | nil => exact second
  | cons grows _ inductionHypothesis =>
    cases second with
    | cons growsOn others => exact .cons (grows.trans growsOn) (inductionHypothesis others)

theorem level?_cons {scope : Scope} {outer : Scopes} {height : Nat}
    (inside : height < outer.length) : level? (scope :: outer) height = level? outer height := by
  rw [level?, List.reverse_cons, List.getElem?_append_left (by simpa using inside)]
  rfl

theorem level?_head (scope : Scope) (outer : Scopes) :
    level? (scope :: outer) outer.length = some scope := by
  simp [level?]

theorem level?_eq_getElem? {scopes : Scopes} {level height : Nat}
    (opposite : level + height + 1 = scopes.length) : scopes.level? height = scopes[level]? :=
  List.getElem?_reverse' (by omega)

theorem Grow.level? {scopes later : Scopes} {height : Nat} {scope : Scope}
    (grow : scopes.Grow later) (found : scopes.level? height = some scope) :
    ∃ scope', later.level? height = some scope' ∧ scope.Grows scope' := by
  have reversed := List.rel_reverse grow
  obtain ⟨inside, rfl⟩ := List.getElem?_eq_some_iff.mp found
  have inside' : height < later.reverse.length := reversed.length_eq ▸ inside
  exact ⟨later.reverse[height], List.getElem?_eq_getElem inside', reversed.get inside inside'⟩

theorem Stacked.level? {scopes : Scopes} {height : Nat} {scope : Scope}
    (stacked : scopes.Stacked) (found : scopes.level? height = some scope) :
    scope.Built ∧ scope.depth = height := by
  induction scopes with
  | nil => simp [Scopes.level?] at found
  | cons first outer inductionHypothesis =>
    obtain ⟨built, depth, stackedOuter⟩ := stacked
    by_cases inside : height < outer.length
    · rw [level?_cons inside] at found
      exact inductionHypothesis stackedOuter found
    · obtain ⟨bound, -⟩ := List.getElem?_eq_some_iff.mp found
      have isHead : height = outer.length := by
        rw [List.length_reverse, List.length_cons] at bound
        omega
      rw [isHead, level?_head] at found
      obtain rfl := Option.some.inj found
      exact ⟨built, isHead ▸ depth⟩

/-! ### One level changes -/

section

variable {scopes : Scopes} {level : Nat} {scope later : Scope}
  (found : scopes[level]? = some scope)

include found

theorem grow_set (grows : scope.Grows later) : scopes.Grow (scopes.set level later) := by
  induction scopes generalizing level with
  | nil => simp at found
  | cons first outer inductionHypothesis =>
    cases level with
    | zero =>
      obtain rfl := Option.some.inj found
      exact .cons grows (Grow.refl outer)
    | succ level => exact .cons (.refl first) (inductionHypothesis found)

theorem Stacked.set
    (stacked : scopes.Stacked)
    (built : later.Built)
    (depth : later.depth = scope.depth) : Stacked (scopes.set level later) := by
  induction scopes generalizing level with
  | nil => simp at found
  | cons first outer inductionHypothesis =>
    obtain ⟨builtFirst, depthFirst, stackedOuter⟩ := stacked
    cases level with
    | zero =>
      obtain rfl := Option.some.inj found
      exact ⟨built, depth.trans depthFirst, stackedOuter⟩
    | succ level =>
      refine ⟨builtFirst, ?_, inductionHypothesis found stackedOuter⟩
      rw [depthFirst, List.length_set]

theorem level?_set {height : Nat} {scope' : Scope}
    (found' : level? (scopes.set level later) height = some scope') :
    level + height + 1 = scopes.length ∧ scope' = later ∨ scopes.level? height = some scope' := by
  obtain ⟨inside, -⟩ := List.getElem?_eq_some_iff.mp found'
  rw [List.length_reverse, List.length_set] at inside
  have opposite : (scopes.length - 1 - height) + height + 1 = scopes.length := by omega
  rw [level?_eq_getElem? (by rw [List.length_set]; exact opposite), List.getElem?_set] at found'
  rw [level?_eq_getElem? opposite]
  obtain ⟨bound, -⟩ := List.getElem?_eq_some_iff.mp found
  rw [if_pos bound] at found'
  split at found'
  · exact .inl ⟨by omega, (Option.some.inj found').symm⟩
  · exact .inr found'

end

end Scopes

/-! ## Following references -/

/-- A reference of an owner is followed: the join for it is taken when it is there, and added as the
next table otherwise. -/
inductive Follows (schema : Schema) (place : Nat) (owner : RowAlias) (step : Step) :
    Scope → RowAlias → Scope → Prop
  | taken {scope : Scope} {join : JoinedRow}
      (joined : scope.joined? owner step.field.name = some join) :
      Follows schema place owner step scope join.name scope
  | added {scope : Scope} {table key : String} {restriction : Option Restriction}
      (first : scope.joined? owner step.field.name = none)
      (restricted : restrictionOf schema scope.nextName step.target = .ok restriction) :
      Follows schema place owner step scope scope.nextName
        (scope.addJoin ⟨place, scope.nextName, table, owner, step.field, key, restriction⟩)

/-- References are followed one after another. -/
inductive FollowsAll (schema : Schema) (place : Nat) :
    RowAlias → List Step → Scope → RowAlias → Scope → Prop
  | nil {owner : RowAlias} {scope : Scope} : FollowsAll schema place owner [] scope owner scope
  | cons {owner next last : RowAlias} {step : Step} {rest : List Step} {scope between later : Scope}
      (first : Follows schema place owner step scope next between)
      (others : FollowsAll schema place next rest between last later) :
      FollowsAll schema place owner (step :: rest) scope last later

variable {schema : Schema}

theorem table_of_restrictionOf
    {name : RowAlias}
    {className : String}
    {kept : Option Restriction}
    (restricted : restrictionOf schema name className = .ok kept) :
    ∀ restriction ∈ kept, restriction.selector.table = name := by
  intro restriction member
  rw [restrictionOf] at restricted
  split at restricted
  · split at restricted
    · obtain rfl := Except.ok.inj restricted
      obtain rfl := Option.some.inj member
      rfl
    · cases restricted
  · obtain rfl := Except.ok.inj restricted
    cases member

section

variable {place : Nat} {owner : RowAlias} {scope : Scope} {chain : List String}
  (built : scope.Built) (owned : scope.LeadsTo place chain owner)

include built owned

/-- Following a reference leads one name further, and to nothing else that is new. -/
theorem Follows.leads {step : Step} {next : RowAlias} {later : Scope}
    (follows : Follows schema place owner step scope next later) :
    later.Built ∧ scope.Grows later ∧ later.LeadsTo place (chain ++ [step.field.name]) next ∧
      ∀ {place' : Nat} {chain' : List String} {name : RowAlias},
        later.LeadsTo place' chain' name → scope.LeadsTo place' chain' name ∨
          place' = place ∧ chain' = chain ++ [step.field.name] := by
  cases follows with
  | @taken join joined =>
    obtain ⟨member, sameOwner, sameField⟩ := built.joined?_eq_some_iff.mp joined
    obtain ⟨_, -, ownerOfJoin⟩ := built.exists_leadsTo member
    obtain ⟨samePlace, -⟩ := (sameOwner ▸ ownerOfJoin).unique built.names_nodup owned
    refine ⟨built, .refl scope, ?_, fun leads => .inl leads⟩
    rw [← sameField]
    exact .join (sameOwner ▸ owned) member samePlace
  | @added table key restriction first restricted =>
    have grows := Scope.grows_addJoin scope
      ⟨place, scope.nextName, table, owner, step.field, key, restriction⟩
    refine ⟨.joined built owned first rfl (table_of_restrictionOf restricted), grows, ?_, ?_⟩
    · exact .join (owned.grows grows) (List.mem_append_right _ (List.mem_singleton_self _)) rfl
    · intro place' chain' name leads
      refine (built.leadsTo_addJoin_cases owned rfl leads).imp_right ?_
      rintro ⟨samePlace, sameChain, -⟩
      exact ⟨samePlace, sameChain⟩

/-- Following references leads to the row at their end; what is new leads along them. -/
theorem FollowsAll.leads {steps : List Step} {last : RowAlias} {later : Scope}
    (follows : FollowsAll schema place owner steps scope last later) :
    later.Built ∧ scope.Grows later ∧
      later.LeadsTo place (chain ++ steps.map (·.field.name)) last ∧
      ∀ {place' : Nat} {chain' : List String} {name : RowAlias},
        later.LeadsTo place' chain' name → scope.LeadsTo place' chain' name ∨
          place' = place ∧ ∃ way, way ≠ [] ∧ way <+: steps.map (·.field.name) ∧
            chain' = chain ++ way := by
  induction follows generalizing chain with
  | nil => exact ⟨built, .refl _, by simpa using owned, fun leads => .inl leads⟩
  | @cons owner next last step rest scope between later first _ inductionHypothesis =>
    obtain ⟨builtBetween, grows, leadsNext, newOne⟩ := first.leads built owned
    obtain ⟨builtLater, growsLater, leadsLast, newOnes⟩ :=
      inductionHypothesis builtBetween leadsNext
    refine ⟨builtLater, grows.trans growsLater, by simpa using leadsLast, ?_⟩
    intro place' chain' name leads
    rcases newOnes leads with before | ⟨samePlace, way, -, isWay, rfl⟩
    · refine (newOne before).imp_right ?_
      rintro ⟨samePlace, rfl⟩
      exact ⟨samePlace, [step.field.name], by simp, by simp, rfl⟩
    · refine .inr ⟨samePlace, step.field.name :: way, by simp, ?_, by simp⟩
      rw [List.map_cons]
      exact (List.prefix_cons_inj _).mpr isWay

end

/-- Joins that are new are for references that were followed. -/
theorem FollowsAll.field_of_join
    {place : Nat}
    {owner last : RowAlias}
    {steps : List Step}
    {scope later : Scope}
    (follows : FollowsAll schema place owner steps scope last later) :
    ∀ join ∈ later.joins, join ∈ scope.joins ∨ ∃ step ∈ steps, join.field = step.field := by
  induction follows with
  | nil => exact fun _ member => .inl member
  | @cons owner next last step rest scope between later first _ inductionHypothesis =>
    intro join member
    rcases inductionHypothesis join member with isBetween | ⟨other, isOther, same⟩
    · cases first with
      | taken => exact .inl isBetween
      | added =>
        rcases List.mem_append.mp isBetween with old | isNew
        · exact .inl old
        · obtain rfl := List.mem_singleton.mp isNew
          exact .inr ⟨step, List.mem_cons_self, rfl⟩
    · exact .inr ⟨other, List.mem_cons_of_mem _ isOther, same⟩

/-! ## Look-ups -/

/-- Each reference is followed in the scope of the level. -/
theorem follows_of_joinStep
    {level place : Nat}
    {owner next : RowAlias}
    {step : Step}
    {scopes scopes' : Scopes}
    {scope : Scope}
    (found : scopes[level]? = some scope)
    (ran : (joinStep schema level place owner step).run scopes = .ok (next, scopes')) :
    ∃ later, Follows schema place owner step scope next later ∧
      scopes' = scopes.set level later := by
  rw [joinStep, run_bind_eq_ok] at ran
  obtain ⟨_, _, got, ran⟩ := ran
  obtain ⟨rfl, rfl⟩ := run_get_eq_ok.mp got
  obtain ⟨inside, atLevel⟩ := List.getElem?_eq_some_iff.mp found
  simp only [found] at ran
  cases joined : scope.joined? owner step.field.name with
  | some join =>
    simp only [joined] at ran
    obtain ⟨rfl, rfl⟩ := run_pure_eq_ok.mp ran
    exact ⟨scope, .taken joined, by rw [← atLevel, List.set_getElem_self]⟩
  | none =>
    simp only [joined, run_bind_eq_ok, run_lift_eq_ok] at ran
    obtain ⟨table, _, ⟨-, rfl⟩, key, _, ⟨-, rfl⟩, restriction, _, ⟨restricted, rfl⟩, _, _, changed,
      finished⟩ := ran
    obtain ⟨rfl, rfl⟩ := run_pure_eq_ok.mp finished
    rw [StateT.run_modify, pure_eq_ok, Except.ok.injEq, Prod.mk.injEq] at changed
    refine ⟨scope.addJoin ⟨place, scope.nextName, table, owner, step.field, key, restriction⟩,
      .added joined restricted, ?_⟩
    rw [← changed.2, List.modify_eq_set_getElem?, found]
    rfl

theorem followsAll_of_joinAlong
    {level place : Nat}
    {owner last : RowAlias}
    {steps : List Step}
    {scopes scopes' : Scopes}
    {scope : Scope}
    (found : scopes[level]? = some scope)
    (ran : (joinAlong schema level place owner steps).run scopes = .ok (last, scopes')) :
    ∃ later, FollowsAll schema place owner steps scope last later ∧
      scopes' = scopes.set level later := by
  induction steps generalizing owner scopes scope with
  | nil =>
    rw [joinAlong, run_pure_eq_ok] at ran
    obtain ⟨rfl, rfl⟩ := ran
    obtain ⟨inside, atLevel⟩ := List.getElem?_eq_some_iff.mp found
    exact ⟨scope, .nil, by rw [← atLevel, List.set_getElem_self]⟩
  | cons step rest inductionHypothesis =>
    rw [joinAlong, run_bind_eq_ok] at ran
    obtain ⟨next, between, first, others⟩ := ran
    obtain ⟨later, follows, rfl⟩ := follows_of_joinStep found first
    obtain ⟨inside, -⟩ := List.getElem?_eq_some_iff.mp found
    obtain ⟨last, followsRest, rfl⟩ :=
      inductionHypothesis (List.getElem?_set_self inside) others
    exact ⟨last, .cons follows followsRest, List.set_set _⟩

/-- A look-up of a chain of names: where it starts, and the references that it goes along. -/
structure Lookup (schema : Schema) (scopes : Scopes) (names : List String) where
  start : Start
  scope : Scope
  entry : Entry
  root : String
  steps : List Step
  located : locateRow schema scopes names = .ok start
  atLevel : scopes[start.level]? = some scope
  atPlace : scope.entries[start.entry]? = some entry
  ofClass : entry.className = some root
  resolved : schema.resolveReferences root start.names = .ok steps

theorem lookup_of_resolveRow
    {names : List String}
    {row : Row}
    {scopes scopes' : Scopes}
    (ran : (resolveRow schema names).run scopes = .ok (row, scopes')) :
    ∃ found : Lookup schema scopes names,
      (joinAlong schema found.start.level found.start.entry found.entry.name found.steps).run scopes
        = .ok (row.name, scopes') ∧ row.className = Schema.endOf found.root found.steps := by
  rw [resolveRow, run_bind_eq_ok] at ran
  obtain ⟨_, _, got, ran⟩ := ran
  obtain ⟨rfl, rfl⟩ := run_get_eq_ok.mp got
  rw [run_bind_eq_ok] at ran
  obtain ⟨start, _, lifted, ran⟩ := ran
  obtain ⟨located, rfl⟩ := run_lift_eq_ok.mp lifted
  split at ran
  · exact absurd ran run_throw_ne_ok
  · next _ entry atStart =>
    obtain ⟨scope, atLevel, atPlace⟩ := Option.bind_eq_some_iff.mp atStart
    split at ran
    · exact absurd ran run_throw_ne_ok
    · next _ root ofClass =>
      simp only [run_bind_eq_ok, run_lift_eq_ok, run_pure_eq_ok] at ran
      obtain ⟨steps, _, ⟨resolved, rfl⟩, name, between, along, rfl, rfl⟩ := ran
      exact ⟨⟨start, scope, entry, root, steps, located, atLevel, atPlace, ofClass, resolved⟩,
        along, rfl⟩

/-- A look-up goes along a chain of references from an entry of the level at a height: some of the
references that lead from there to the row. -/
def Dereferences
    (schema : Schema)
    (scopes : Scopes)
    (names : List String)
    (height place : Nat)
    (chain : List String) : Prop :=
  ∃ start, locateRow schema scopes names = .ok start ∧
    start.level + height + 1 = scopes.length ∧ start.entry = place ∧
      chain ≠ [] ∧ chain <+: start.names

section

variable {names : List String} {row : Row} {scopes scopes' : Scopes} (stacked : scopes.Stacked)

include stacked

theorem Scopes.Stacked.atLevel {level : Nat} {scope : Scope} (found : scopes[level]? = some scope) :
    scope.Built := by
  obtain ⟨inside, -⟩ := List.getElem?_eq_some_iff.mp found
  have opposite : level + (scopes.length - 1 - level) + 1 = scopes.length := by omega
  exact (stacked.level? (level?_eq_getElem? opposite ▸ found)).1

/-- Along the first steps of a look-up, or all of them, the scopes stay stacked and grow. -/
theorem Lookup.keepsStacked
    (found : Lookup schema scopes names)
    {done : List Step}
    {last : RowAlias}
    (ran : (joinAlong schema found.start.level found.start.entry found.entry.name done).run scopes
      = .ok (last, scopes')) : scopes'.Stacked ∧ scopes.Grow scopes' := by
  obtain ⟨later, follows, rfl⟩ := followsAll_of_joinAlong found.atLevel ran
  obtain ⟨built, grows, -, -⟩ :=
    follows.leads (stacked.atLevel found.atLevel) (.entry found.atPlace)
  exact ⟨stacked.set found.atLevel built grows.depth_eq, Scopes.grow_set found.atLevel grows⟩

theorem resolveRow_stacked (ran : (resolveRow schema names).run scopes = .ok (row, scopes')) :
    scopes'.Stacked ∧ scopes.Grow scopes' := by
  obtain ⟨found, along, -⟩ := lookup_of_resolveRow ran
  exact found.keepsStacked stacked along

/-- After a look-up the names that it started with lead to the row. -/
theorem resolveRow_leadsTo
    (ran : (resolveRow schema names).run scopes = .ok (row, scopes'))
    {start : Start}
    (located : locateRow schema scopes names = .ok start)
    {height : Nat}
    (opposite : start.level + height + 1 = scopes.length) :
    ∃ scope, scopes'.level? height = some scope ∧
      scope.LeadsTo start.entry start.names row.name := by
  obtain ⟨found, along, -⟩ := lookup_of_resolveRow ran
  obtain rfl : found.start = start := Except.ok.inj (found.located.symm.trans located)
  obtain ⟨later, follows, rfl⟩ := followsAll_of_joinAlong found.atLevel along
  obtain ⟨-, -, leads, -⟩ := follows.leads (stacked.atLevel found.atLevel) (.entry found.atPlace)
  rw [Schema.fields_of_resolveReferences found.resolved] at leads
  refine ⟨later, ?_, leads⟩
  rw [Scopes.level?_eq_getElem? (by rw [List.length_set]; exact opposite)]
  exact List.getElem?_set_self (by omega)

/-- What leads to a row after a look-up did so before, or is a chain that the look-up goes along. -/
theorem resolveRow_leadsTo_cases
    (ran : (resolveRow schema names).run scopes = .ok (row, scopes'))
    {height place : Nat}
    {chain : List String}
    {name : RowAlias}
    {later : Scope}
    (atHeight : scopes'.level? height = some later)
    (leads : later.LeadsTo place chain name) :
    (∃ scope, scopes.level? height = some scope ∧ scope.LeadsTo place chain name) ∨
      Dereferences schema scopes names height place chain := by
  obtain ⟨found, along, -⟩ := lookup_of_resolveRow ran
  obtain ⟨changed, follows, rfl⟩ := followsAll_of_joinAlong found.atLevel along
  rcases Scopes.level?_set found.atLevel atHeight with ⟨opposite, rfl⟩ | unchanged
  · obtain ⟨-, -, -, newOnes⟩ :=
      follows.leads (stacked.atLevel found.atLevel) (.entry found.atPlace)
    rcases newOnes leads with before | ⟨rfl, way, nonempty, isWay, rfl⟩
    · exact .inl ⟨found.scope, (Scopes.level?_eq_getElem? opposite).trans found.atLevel, before⟩
    · rw [Schema.fields_of_resolveReferences found.resolved] at isWay
      exact .inr ⟨found.start, found.located, opposite, rfl, nonempty, isWay⟩
  · exact .inl ⟨later, unchanged, leads⟩

end

end ObjectQuery.Sql

import ObjectQuery.Proofs.Expr.Involvement
import ObjectQuery.Proofs.Sql.Frames
import ObjectQuery.Proofs.Sql.Shadowing

/-!
Contract: the involved classes of a query cover what its statement reads.

The analysis of a query and its translation go through the same expressions with matching frames and
scopes, so what the one has read the other comes across: the classes of from lists, those that
references lead to, and those of the elements of collections.

Owns: `Scope.Covered`, and that the involved classes cover all scopes of a translation.
-/

namespace ObjectQuery.Sql

/-- These classes cover a scope: the classes of its entries and the targets of its joins are among
them. -/
structure Scope.Covered (schema : Schema) (classes : List String) (scope : Scope) : Prop where
  entries : ∀ entry ∈ scope.entries, ∀ className ∈ entry.className, className ∈ classes
  joins : ∀ join ∈ scope.joins, ∃ target, schema.referenced? join.field = some target ∧
    target.name ∈ classes

/-- The analysis reads a task in frames that match the scopes, and finds these classes at most. -/
def Task.Read (schema : Schema) (classes : List String) (scopes : Scopes) : Task → Prop
  | .row names => ∃ frames last onWay, scopes.Match frames ∧
      schema.classesOnWay frames names = .ok (last, onWay) ∧ onWay ⊆ classes
  | .term _ e => ∃ frames read, scopes.Match frames ∧
      e.classesRead schema frames = .ok read ∧ read ⊆ classes

variable {schema : Schema} {classes : List String}

theorem Task.Read.grow {task : Task} {scopes later : Scopes}
    (read : task.Read schema classes scopes)
    (grow : scopes.Grow later) : task.Read schema classes later := by
  cases task with
  | row names =>
    obtain ⟨frames, last, onWay, matching, isRead⟩ := read
    exact ⟨frames, last, onWay, matching.grow grow, isRead⟩
  | term role e =>
    obtain ⟨frames, found, matching, isRead⟩ := read
    exact ⟨frames, found, matching.grow grow, isRead⟩

/-! ## What an expression reads -/

section

variable {frames : List Frame} {read : List String}

/-- The analysis of an expression reads what is done for it in its own scopes. -/
theorem Task.Read.of_tasks {role : Role} {e : Expr} {scopes : Scopes}
    (read : (Task.term role e).Read schema classes scopes) :
    ∀ task ∈ e.tasks, task.Read schema classes scopes := by
  obtain ⟨frames, read, matching, ran, included⟩ := read
  cases e with
  | literal _ | raw _ | parameter _ _ | boolean _ | query _ | nonempty _ =>
    exact List.forall_mem_nil _
  | path p =>
    rw [Expr.classesRead] at ran
    obtain ⟨⟨last, onWay⟩, ranOwner, ran⟩ := bind_eq_ok.mp ran
    obtain ⟨_, -, finished⟩ := bind_eq_ok.mp ran
    obtain rfl := Except.ok.inj finished
    exact List.forall_mem_singleton.mpr ⟨frames, last, onWay, matching, ranOwner, included⟩
  | asterisk owner =>
    rw [Expr.classesRead] at ran
    obtain ⟨⟨last, onWay⟩, ranOwner, finished⟩ := bind_eq_ok.mp ran
    obtain rfl := Except.ok.inj finished
    exact List.forall_mem_singleton.mpr ⟨frames, last, onWay, matching, ranOwner, included⟩
  | classTag owner =>
    rw [Expr.classesRead] at ran
    obtain ⟨⟨last, onWay⟩, ranOwner, finished⟩ := bind_eq_ok.mp ran
    obtain rfl := Except.ok.inj finished
    exact List.forall_mem_singleton.mpr
      ⟨frames, last, onWay, matching, ranOwner, (List.append_subset.mp included).1⟩
  | binary _ left right | and left right | or left right =>
    rw [Expr.classesRead] at ran
    obtain ⟨⟨found, ranLeft, inLeft⟩, found', ranRight, inRight⟩ := read_pair ran included
    exact List.forall_mem_cons.mpr ⟨⟨frames, found, matching, ranLeft, inLeft⟩,
      List.forall_mem_singleton.mpr ⟨frames, found', matching, ranRight, inRight⟩⟩
  | negate operand | not operand | nullTest operand _ =>
    rw [Expr.classesRead] at ran
    exact List.forall_mem_singleton.mpr ⟨frames, read, matching, ran, included⟩
  | call _ arguments =>
    rw [Expr.classesRead] at ran
    intro task member
    obtain ⟨argument, isArgument, rfl⟩ := List.mem_map.mp member
    obtain ⟨found, isRead⟩ := read_each ran included argument (List.mem_of_mem_filter isArgument)
    exact ⟨frames, found, matching, isRead⟩
  | relational op left right =>
    rw [Expr.classesRead] at ran
    obtain ⟨⟨found, ranLeft, inLeft⟩, found', ranRight, inRight⟩ := read_pair ran included
    rw [Expr.tasks]
    split
    · refine List.forall_mem_singleton.mpr ?_
      split
      · exact ⟨frames, found, matching, ranLeft, inLeft⟩
      · exact ⟨frames, found', matching, ranRight, inRight⟩
    · exact List.forall_mem_cons.mpr ⟨⟨frames, found, matching, ranLeft, inLeft⟩,
        List.forall_mem_singleton.mpr ⟨frames, found', matching, ranRight, inRight⟩⟩
  | oneOf operand candidates =>
    rw [Expr.classesRead] at ran
    obtain ⟨⟨found, ranOperand, inOperand⟩, _, ranCandidates, inCandidates⟩ :=
      read_pair ran included
    rw [Expr.tasks]
    split
    · exact List.forall_mem_nil _
    · refine List.forall_mem_cons.mpr ⟨⟨frames, found, matching, ranOperand, inOperand⟩, ?_⟩
      intro task member
      obtain ⟨candidate, isCandidate, rfl⟩ := List.mem_map.mp member
      obtain ⟨found', isRead⟩ := read_each ranCandidates inCandidates candidate isCandidate
      exact ⟨frames, found', matching, isRead⟩
  | count owner collection =>
    rw [Expr.classesRead] at ran
    obtain ⟨⟨element, onWay⟩, ranCollection, finished⟩ := bind_eq_ok.mp ran
    obtain rfl := Except.ok.inj finished
    obtain ⟨last, onWay, _, ranOwner, inOwner, -⟩ := read_collection ranCollection included
    exact List.forall_mem_singleton.mpr ⟨frames, last, onWay, matching, ranOwner, inOwner⟩
  | contains owner collection element =>
    rw [Expr.classesRead] at ran
    obtain ⟨⟨elementClass, inCollection⟩, ranCollection, ran⟩ := bind_eq_ok.mp ran
    obtain ⟨found, ranElement, finished⟩ := bind_eq_ok.mp ran
    obtain rfl := Except.ok.inj finished
    obtain ⟨includedCollection, includedElement⟩ := List.append_subset.mp included
    obtain ⟨last, onWay, _, ranOwner, inOwner, -⟩ :=
      read_collection ranCollection includedCollection
    have ownerRead : (Task.row owner).Read schema classes scopes :=
      ⟨frames, last, onWay, matching, ranOwner, inOwner⟩
    rw [Expr.tasks]
    split
    · exact List.forall_mem_singleton.mpr ownerRead
    · next scalar =>
      rw [if_neg scalar] at ranElement
      exact List.forall_mem_cons.mpr ⟨ownerRead,
        List.forall_mem_singleton.mpr ⟨frames, found, matching, ranElement, includedElement⟩⟩

/-! ## What a level reads -/

theorem classesOfSources_eq {items : List FromItem}
    (ran : schema.classesOfSources items = .ok read) : read = items.map (·.className) := by
  induction items generalizing read with
  | nil => exact (Except.ok.inj ran).symm
  | cons item rest inductionHypothesis =>
    obtain ⟨_, -, ran⟩ := bind_eq_ok.mp ran
    obtain ⟨others, ranOthers, finished⟩ := bind_eq_ok.mp ran
    obtain rfl := Except.ok.inj finished
    rw [inductionHypothesis ranOthers, List.map_cons]

/-- The analysis of a query finds the classes of its from list and reads its clauses in its
frame. -/
theorem read_query {q : Query} {first : FromItem} {rest : List FromItem} {scopes : Scopes}
    (sources : q.sources = first :: rest)
    (ran : q.classesRead schema frames = .ok read)
    (included : read ⊆ classes)
    (matching : scopes.Match (⟨first.className, first :: rest⟩ :: frames)) :
    (∀ item ∈ first :: rest, item.className ∈ classes) ∧
      ∀ task ∈ q.tasks, task.Read schema classes scopes := by
  obtain ⟨_, items, _, condition, groupBy, having, orderBy⟩ := q
  subst sources
  simp only [Query.classesRead, SelectItem.classesRead_eq, Expr.classesReadByOption_eq,
    OrderItem.classesRead_eq] at ran
  obtain ⟨named, ranSources, ran⟩ := bind_eq_ok.mp ran
  obtain ⟨selected, ranItems, ran⟩ := bind_eq_ok.mp ran
  obtain ⟨filtered, ranFilter, ran⟩ := bind_eq_ok.mp ran
  obtain ⟨grouped, ranGroups, ran⟩ := bind_eq_ok.mp ran
  obtain ⟨kept, ranHaving, ran⟩ := bind_eq_ok.mp ran
  obtain ⟨ordered, ranKeys, finished⟩ := bind_eq_ok.mp ran
  obtain rfl := Except.ok.inj finished
  simp only [List.append_subset] at included
  obtain ⟨⟨⟨⟨⟨inSources, inItems⟩, inFilter⟩, inGroups⟩, inHaving⟩, inKeys⟩ := included
  refine ⟨fun item member => inSources ?_, ?_⟩
  · rw [classesOfSources_eq ranSources]
    exact List.mem_map_of_mem member
  · have ofRead (role : Role) {e : Expr} (isRead : ∃ found,
        e.classesRead schema (⟨first.className, first :: rest⟩ :: frames) = .ok found ∧
          found ⊆ classes) : (Task.term role e).Read schema classes scopes := by
      obtain ⟨found, isRead⟩ := isRead
      exact ⟨_, found, matching, isRead⟩
    simp only [Query.tasks, List.forall_mem_append, List.forall_mem_map]
    have itemsRead := List.forall_mem_map.mp (read_each ranItems inItems)
    have keysRead := List.forall_mem_map.mp (read_each ranKeys inKeys)
    exact ⟨⟨⟨⟨fun item member => ofRead _ (itemsRead item member),
      fun e member => ofRead _ (read_each ranFilter inFilter e member)⟩,
      fun e member => ofRead _ (read_each ranGroups inGroups e member)⟩,
      fun e member => ofRead _ (read_each ranHaving inHaving e member)⟩,
      fun item member => ofRead _ (keysRead item member)⟩

/-- The collection that a translation finds is the one that the analysis finds. -/
theorem element_mem_of_resolveCollection
    {owner : List String}
    {collection element : String}
    {scopes next : Scopes}
    {found : CollectionDef}
    {key : ColumnRef}
    (matching : scopes.Match frames)
    (ran : schema.classesOfCollection frames owner collection = .ok (element, read))
    (included : read ⊆ classes)
    (resolved : (resolveCollection schema owner collection).run scopes = .ok ((found, key), next)) :
    element = found.element ∧ found.element ∈ classes := by
  obtain ⟨last, onWay, found', ranOwner, -, required, sameElement, member⟩ :=
    read_collection ran included
  obtain ⟨row, resolvedRow, -, required'⟩ := row_of_resolveCollection resolved
  obtain ⟨lookup, -, ofRow⟩ := lookup_of_resolveRow resolvedRow
  obtain ⟨ofLast, -⟩ := lookup.classesOnWay_eq matching ranOwner
  rw [ofRow, ← ofLast] at required'
  obtain rfl := Except.ok.inj (required.symm.trans required')
  exact ⟨sameElement, member⟩

/-- The elements' class of a collection test or count is found. -/
theorem Task.Read.of_collection
    {role : Role}
    {e : Expr}
    {owner : List String}
    {collection : String}
    {scopes next : Scopes}
    {found : CollectionDef}
    {key : ColumnRef}
    (read : (Task.term role e).Read schema classes scopes)
    (asked : e = .count owner collection ∨ ∃ element, e = .contains owner collection element)
    (resolved : (resolveCollection schema owner collection).run scopes = .ok ((found, key), next)) :
    found.element ∈ classes := by
  obtain ⟨frames, read, matching, ran, included⟩ := read
  rcases asked with rfl | ⟨element, rfl⟩ <;> rw [Expr.classesRead] at ran
  · obtain ⟨⟨_, _⟩, ranCollection, finished⟩ := bind_eq_ok.mp ran
    obtain rfl := Except.ok.inj finished
    exact (element_mem_of_resolveCollection matching ranCollection included resolved).2
  · obtain ⟨⟨_, _⟩, ranCollection, ran⟩ := bind_eq_ok.mp ran
    obtain ⟨_, -, finished⟩ := bind_eq_ok.mp ran
    obtain rfl := Except.ok.inj finished
    exact (element_mem_of_resolveCollection matching ranCollection
      (List.append_subset.mp included).1 resolved).2

theorem read_of_addSources
    {q : Query}
    {scopes : Scopes}
    {scope : Scope}
    {kept : List Condition}
    (nonempty : q.sources ≠ [])
    (added : addSources schema (.empty scopes.length) q.sources = .ok (scope, kept))
    (matching : scopes.Match frames)
    (ran : q.classesRead schema frames = .ok read)
    (included : read ⊆ classes) :
    scope.Covered schema classes ∧
      ∀ task ∈ q.tasks, task.Read schema classes (scope :: scopes) := by
  obtain ⟨first, rest, sources⟩ := List.exists_cons_of_ne_nil nonempty
  rw [sources] at added
  have fits := fits_of_addSources added
  obtain ⟨inSources, reads⟩ := read_query sources ran included (.level fits matching)
  refine ⟨⟨fun entry member className ofClass => ?_, fun join member => ?_⟩, reads⟩
  · have isItem : ⟨className, entry.label⟩ ∈ first :: rest := by
      have items : scope.entries.filterMap Entry.item? = first :: rest := fits.items_eq
      exact items ▸ List.mem_filterMap.mpr
        ⟨entry, member, by rw [Entry.item?, Option.mem_def.mp ofClass]; rfl⟩
    exact inSources _ isItem
  · rw [(opened_of_addSources (Scope.opened_empty _) added).1.no_joins] at member
    cases member

theorem covered_of_membership
    {depth : Nat}
    {collection : CollectionDef}
    {key : ColumnRef}
    {elementsMatter : Bool}
    {setup : Membership}
    (opened : membership schema depth collection key elementsMatter = .ok setup)
    (found : collection.element ∈ classes) : setup.scope.Covered schema classes := by
  obtain ⟨ofElements, -⟩ := fits_of_membership opened
  refine ⟨fun entry member className ofClass => ?_, fun join member => ?_⟩
  · exact ofElements entry member className ofClass ▸ found
  · rw [(valid_of_membership opened).1.opened.no_joins] at member
    cases member

/-- The classes of the entries of a level are found, and what is done in it is read. -/
theorem Task.Read.of_level
    {role : Role}
    {e : Expr}
    {scopes below : Scopes}
    {scope : Scope}
    {body : List Task}
    (read : (Task.term role e).Read schema classes scopes)
    (opens : Opens schema e scopes below scope body)
    (grow : scopes.Grow below) :
    scope.Covered schema classes ∧ ∀ task ∈ body, task.Read schema classes (scope :: below) := by
  cases opens with
  | query nonempty added | nonempty nonempty added =>
    obtain ⟨frames, read, matching, ran, included⟩ := read
    rw [Expr.classesRead] at ran
    exact read_of_addSources nonempty added matching ran included
  | count resolved opened =>
    exact ⟨covered_of_membership opened (read.of_collection (.inl rfl) resolved),
      List.forall_mem_nil _⟩
  | value _ resolved _ opened =>
    exact ⟨covered_of_membership opened (read.of_collection (.inr ⟨_, rfl⟩) resolved),
      List.forall_mem_nil _⟩
  | condition kind resolved opened =>
    obtain ⟨frames, read, matching, ran, included⟩ := read
    rw [Expr.classesRead] at ran
    obtain ⟨⟨element, onWay⟩, ranCollection, ran⟩ := bind_eq_ok.mp ran
    obtain ⟨inElement, ranElement, finished⟩ := bind_eq_ok.mp ran
    obtain rfl := Except.ok.inj finished
    obtain ⟨includedCollection, includedElement⟩ := List.append_subset.mp included
    obtain ⟨rfl, found⟩ :=
      element_mem_of_resolveCollection matching ranCollection includedCollection resolved
    obtain ⟨-, fits⟩ := fits_of_membership opened
    rw [if_pos kind] at ranElement
    exact ⟨covered_of_membership opened found, List.forall_mem_singleton.mpr
      ⟨_, inElement, .level (fits rfl) (matching.grow grow), ranElement, includedElement⟩⟩

end

/-! ## Scopes along a course -/

/-- All scopes are covered. -/
abbrev Scopes.Covered (schema : Schema) (classes : List String) (scopes : Scopes) : Prop :=
  ∀ scope ∈ scopes, scope.Covered schema classes

/-- Along the first references of a look-up, or all of them, the scopes stay covered. -/
theorem Lookup.keepsCovered
    {names : List String}
    {scopes scopes' : Scopes}
    {done rest : List Step}
    {last : RowAlias}
    (found : Lookup schema scopes names)
    (read : (Task.row names).Read schema classes scopes)
    (stacked : scopes.Stacked)
    (covered : scopes.Covered schema classes)
    (split : found.steps = done ++ rest)
    (ran : (joinAlong schema found.start.level found.start.entry found.entry.name done).run scopes
      = .ok (last, scopes')) : scopes'.Covered schema classes := by
  obtain ⟨frames, _, onWay, matching, ranOwner, included⟩ := read
  obtain ⟨-, rfl⟩ := found.classesOnWay_eq matching ranOwner
  obtain ⟨later, follows, rfl⟩ := followsAll_of_joinAlong found.atLevel ran
  obtain ⟨-, grows, -, -⟩ :=
    follows.leads (stacked.atLevel found.atLevel) (.entry found.atPlace)
  have before := covered found.scope (List.mem_of_getElem? found.atLevel)
  have coveredLater : later.Covered schema classes := by
    refine ⟨grows.entries_eq ▸ before.entries, fun join member => ?_⟩
    rcases follows.field_of_join join member with old | ⟨step, isDone, sameField⟩
    · exact before.joins join old
    · have isStep : step ∈ found.steps := split ▸ List.mem_append_left _ isDone
      obtain ⟨target, referenced, sameName⟩ :=
        Schema.referenced?_of_resolveReferences found.resolved step isStep
      refine ⟨target, sameField ▸ referenced, included ?_⟩
      exact List.mem_cons_of_mem _ (sameName ▸ List.mem_map_of_mem isStep)
  intro scope member
  rcases List.mem_or_eq_of_mem_set member with old | rfl
  · exact covered scope old
  · exact coveredLater

theorem covered_of_resolveRow
    {names : List String}
    {row : Row}
    {scopes scopes' : Scopes}
    (read : (Task.row names).Read schema classes scopes)
    (stacked : scopes.Stacked)
    (covered : scopes.Covered schema classes)
    (ran : (resolveRow schema names).run scopes = .ok (row, scopes')) :
    scopes'.Covered schema classes := by
  obtain ⟨found, along, -⟩ := lookup_of_resolveRow ran
  exact found.keepsCovered read stacked covered (List.append_nil _).symm along

/-- A course of tasks that the analysis reads keeps the scopes covered. -/
theorem Runs.keepsCovered {tasks : List Task} {scopes last : Scopes} {terms : List Term}
    (runs : Runs schema tasks scopes terms last)
    (covered : scopes.Covered schema classes)
    (read : ∀ task ∈ tasks, task.Read schema classes scopes) : last.Covered schema classes := by
  induction runs with
  | nil => exact covered
  | row stacked resolved grow _ inductionLater =>
    obtain ⟨readFirst, readRest⟩ := List.forall_mem_cons.mp read
    exact inductionLater (covered_of_resolveRow readFirst stacked covered resolved)
      fun task member => (readRest task member).grow grow
  | flat _ _ _ _ grow _ _ inductionInside inductionLater =>
    obtain ⟨readFirst, readRest⟩ := List.forall_mem_cons.mp read
    exact inductionLater (inductionInside covered readFirst.of_tasks)
      fun task member => (readRest task member).grow grow
  | level _ _ run growBelow _ growNext _ _ _ inductionBefore inductionInside inductionLater =>
    obtain ⟨readFirst, readRest⟩ := List.forall_mem_cons.mp read
    obtain ⟨coveredScope, readBody⟩ := readFirst.of_level run.opens growBelow
    have coveredBelow := inductionBefore covered readFirst.of_tasks
    have coveredInside :=
      inductionInside (List.forall_mem_cons.mpr ⟨coveredScope, coveredBelow⟩) readBody
    exact inductionLater (List.forall_mem_cons.mp coveredInside).2
      fun task member => (readRest task member).grow (growBelow.trans growNext)

/-- Wherever a level is opened, its scope and those below it are covered. -/
theorem Opens.covered
    {role : Role}
    {e : Expr}
    {scopes below : Scopes}
    {scope : Scope}
    {body : List Task}
    (opens : Opens schema e scopes below scope body)
    (stacked : scopes.Stacked)
    (covered : scopes.Covered schema classes)
    (read : (Task.term role e).Read schema classes scopes) :
    Scopes.Covered schema classes (scope :: below) ∧
      ∀ task ∈ body, task.Read schema classes (scope :: below) := by
  obtain ⟨_, ranTasks⟩ := opens.ran_tasks
  obtain ⟨-, grow⟩ := opens.stacked stacked
  obtain ⟨coveredScope, readBody⟩ := read.of_level opens grow
  have coveredBelow := (runs_of_runInTurn stacked ranTasks).keepsCovered covered read.of_tasks
  exact ⟨List.forall_mem_cons.mpr ⟨coveredScope, coveredBelow⟩, readBody⟩

/-- Whatever a course comes to is read, in covered scopes. -/
theorem Meets.covered {tasks : List Task} {task : Task} {scopes scopes' : Scopes}
    (meets : Meets schema tasks scopes task scopes')
    (stacked : scopes.Stacked)
    (covered : scopes.Covered schema classes)
    (read : ∀ task ∈ tasks, task.Read schema classes scopes) :
    scopes'.Covered schema classes ∧ task.Read schema classes scopes' := by
  induction meets with
  | here => exact ⟨covered, read _ List.mem_cons_self⟩
  | later ran _ inductionHypothesis =>
    obtain ⟨readFirst, readRest⟩ := List.forall_mem_cons.mp read
    have runsFirst := Task.runs stacked ran
    exact inductionHypothesis runsFirst.stacked_last
      (runsFirst.keepsCovered covered (List.forall_mem_singleton.mpr readFirst))
      fun task member => (readRest task member).grow runsFirst.grow
  | part _ inductionHypothesis =>
    exact inductionHypothesis stacked covered (read _ List.mem_cons_self).of_tasks
  | level opens _ inductionHypothesis =>
    obtain ⟨coveredInside, readBody⟩ := opens.covered stacked covered (read _ List.mem_cons_self)
    exact inductionHypothesis (opens.stacked stacked).1 coveredInside readBody

theorem Task.Passes.covered {task : Task} {scopes between : Scopes}
    (passes : task.Passes schema scopes between)
    (stacked : scopes.Stacked)
    (covered : scopes.Covered schema classes)
    (read : task.Read schema classes scopes) : between.Covered schema classes := by
  cases passes with
  | start => exact covered
  | along found split ran => exact found.keepsCovered read stacked covered split ran
  | opened opens => exact (opens.covered stacked covered read).1
  | finish ran =>
    exact (Task.runs stacked ran).keepsCovered covered (List.forall_mem_singleton.mpr read)

theorem Opens.resolved
    {e : Expr}
    {scopes below : Scopes}
    {scope : Scope}
    {body : List Task}
    {owner : List String}
    {collection : String}
    (opens : Opens schema e scopes below scope body)
    (asked : e = .count owner collection ∨ ∃ element, e = .contains owner collection element) :
    ∃ found key next,
      (resolveCollection schema owner collection).run scopes = .ok ((found, key), next) := by
  rcases asked with rfl | ⟨element, rfl⟩
  · cases opens with
    | count resolved _ => exact ⟨_, _, _, resolved⟩
  · cases opens with
    | condition _ resolved _ | value _ resolved _ _ => exact ⟨_, _, _, resolved⟩

/-- When a query can be translated and analysed, its involved classes include, at every point of the
translation, the classes of all entries and the targets of all joins of all levels, and the classes
of the elements that each collection test or count comes to. -/
theorem involvedClasses_cover_translation
    (schema : Schema)
    (config : Config)
    (query : Query)
    (text : String)
    (classes : List String)
    (translated : schema.toSql config query = .ok text)
    (analysed : schema.involvedClassesOfQuery query = .ok classes) :
    (∀ scopes, query.Reaches schema scopes → scopes.Covered schema classes) ∧
      ∀ role e scopes owner collection, query.Meets schema (.term role e) scopes →
        (e = .count owner collection ∨ ∃ element, e = .contains owner collection element) →
          ∃ found key next,
            (resolveCollection schema owner collection).run scopes = .ok ((found, key), next) ∧
              found.element ∈ classes := by
  obtain ⟨statement, ran, -⟩ := bind_eq_ok.mp translated
  have read : ∀ task ∈ [Task.term .value (.query query)], task.Read schema classes [] := by
    rw [Schema.involvedClassesOfQuery] at analysed
    split at analysed
    · cases analysed
    · next root _ =>
      obtain ⟨found, isRead, finished⟩ := bind_eq_ok.mp analysed
      obtain rfl := Except.ok.inj finished
      refine List.forall_mem_singleton.mpr
        ⟨[⟨root, []⟩], found, .outermost, ?_, fun name member => ?_⟩
      · rw [Expr.classesRead]
        exact isRead
      · exact (Schema.mem_sortedNames found name).mpr member
  have none : Scopes.Covered schema classes [] := List.forall_mem_nil _
  constructor
  · rintro scopes ⟨task, before, meets, passes⟩
    obtain ⟨covered, isRead⟩ := Meets.covered meets Scopes.stacked_nil none read
    exact passes.covered (Meets.stacked meets Scopes.stacked_nil) covered isRead
  · intro role e scopes owner collection meets asked
    obtain ⟨-, isRead⟩ := Meets.covered meets Scopes.stacked_nil none read
    obtain ⟨t, next, done, -⟩ := meets.done ran
    have nests : e.opensLevel = true := by rcases asked with rfl | ⟨_, rfl⟩ <;> rfl
    obtain ⟨run⟩ := exists_levelRun nests done
    obtain ⟨found, key, next, resolved⟩ := run.opens.resolved asked
    exact ⟨found, key, next, resolved, isRead.of_collection asked resolved⟩

/-! ### Contacts with their groups -/

/-- `select PrimaryGroup.Members.Count from Contact` -/
def groupSizes : Query :=
  ⟨false, [⟨.count ["PrimaryGroup"] "Members", none⟩], [⟨"Contact", none⟩], none, [], none, []⟩

/-- The scope of `groupSizes` before anything is joined. -/
def contactScope : Scope :=
  (Scope.empty 0).addEntry (some "Contact") none "contact"

/-- The scope of `groupSizes` with the group joined. -/
def contactAndGroupScope : Scope :=
  contactScope.addJoin
    ⟨0, ⟨0, 1⟩, "_group", ⟨0, 0⟩, .reference "PrimaryGroup" "primary_group" "Group", "id", none⟩

/-- The analysis of `groupSizes` finds the class of the contacts, which are also what is counted,
and that of the groups that are joined to them. -/
theorem groupSizes_covered :
    ∃ text found key next, clubSchema.toSql .standard groupSizes = .ok text ∧
      clubSchema.involvedClassesOfQuery groupSizes = .ok ["Contact", "Group"] ∧
      groupSizes.Reaches clubSchema [contactAndGroupScope] ∧
      Scopes.Covered clubSchema ["Contact", "Group"] [contactAndGroupScope] ∧
      (resolveCollection clubSchema ["PrimaryGroup"] "Members").run [contactScope]
        = .ok ((found, key), next) ∧
      found.element ∈ ["Contact", "Group"] := by
  obtain ⟨statement, ran⟩ : ∃ statement, clubSchema.toSelect groupSizes = .ok statement :=
    exists_eq_ok (by cbv)
  have translated : clubSchema.toSql .standard groupSizes = .ok (statement.text .standard) :=
    bind_eq_ok.mpr ⟨statement, ran, rfl⟩
  have analysed : clubSchema.involvedClassesOfQuery groupSizes = .ok ["Contact", "Group"] := by cbv
  have added : addSources clubSchema (.empty 0) groupSizes.sources = .ok (contactScope, []) := by
    cbv
  have joined : ((Task.row ["PrimaryGroup"]).run clubSchema).run [contactScope]
      = .ok (.rowOf ⟨0, 1⟩, [contactAndGroupScope]) := by cbv
  have opens : Opens clubSchema (.query groupSizes) [] [] contactScope groupSizes.tasks :=
    .query (List.cons_ne_nil _ _) added
  have reaches : groupSizes.Reaches clubSchema [contactAndGroupScope] :=
    ⟨_, _, .level opens (.part .here), .finish joined⟩
  obtain ⟨covered, elements⟩ := involvedClasses_cover_translation clubSchema .standard groupSizes _
    ["Contact", "Group"] translated analysed
  obtain ⟨found, key, next, resolved, member⟩ :=
    elements .value _ _ _ _ (.level opens .here) (.inl rfl)
  exact ⟨_, found, key, next, translated, analysed, reaches, covered _ reaches, resolved, member⟩

end ObjectQuery.Sql

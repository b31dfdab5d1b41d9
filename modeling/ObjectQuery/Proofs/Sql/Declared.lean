import ObjectQuery.Proofs.Schema.Places
import ObjectQuery.Proofs.Sql.Failures
import ObjectQuery.Proofs.Sql.Shadowing

/-!
Contract: what is translated is declared.

The translation of an expression comes to every place within it but for the operands of membership
tests without candidates, which are never looked at.

Owns:
- `Declared`, that all places within an expression resolve which such tests do not hide;
- that this holds of every query that is translated, and that all others fail by the schema.
-/

namespace ObjectQuery.Sql

/-- Every place within an expression resolves, those in membership tests without candidates aside. -/
def Declared (schema : Schema) (frames : List Frame) (e : Expr) : Prop :=
  ∀ place, Place.Has schema (·.isEmptyTest = false) ⟨frames, e⟩ place → place.Resolves schema

/-- The scopes are those of the frames, and the classes of bare names exist. -/
abbrev Scopes.FitEach (schema : Schema) (scopes : Scopes) (frames : List Frame) : Prop :=
  List.Forall₂ (fun scope frame => scope.Fits frame ∧ (schema.require frame.root).isOk) scopes frames

variable {schema : Schema} {frames : List Frame} {scopes next : Scopes}

theorem declared_iff {e : Expr} :
    Declared schema frames e ↔
      (⟨frames, e⟩ : Place).Resolves schema ∧
        (e.isEmptyTest = false →
          (∀ part ∈ e.operands, Declared schema frames part) ∧
            ∀ frame ∈ e.levelFrame? schema frames, ∀ part ∈ e.clauses,
              Declared schema (frame :: frames) part) := by
  rw [Declared, Place.forall_has_iff, Place.forall_mem_parts]
  rfl

/-! ## Rows -/

/-- A level without from items around the others changes no name. -/
theorem locate_append_bare {root : String} {names : List String} (some_frame : frames ≠ []) :
    schema.locate (frames ++ [⟨root, []⟩]) names = schema.locate frames names := by
  obtain ⟨frame, others, rfl⟩ := List.exists_cons_of_ne_nil some_frame
  cases names with
  | nil => rfl
  | cons first rest =>
    have same : (frame :: others ++ [(⟨root, []⟩ : Frame)]).findSome? (·.named? first)
        = (frame :: others).findSome? (·.named? first) := by
      rw [List.findSome?_append]
      exact Option.or_none
    rw [List.cons_append] at same ⊢
    simp only [Schema.locate, same]

namespace Scopes.FitEach

variable (fits : scopes.FitEach schema frames)

include fits

theorem grow {later : Scopes} (grow : scopes.Grow later) : later.FitEach schema frames := by
  induction fits generalizing later with
  | nil =>
    cases grow
    exact .nil
  | cons fit _ inductionHypothesis =>
    cases grow with
    | cons grows others => exact .cons ⟨fit.1.grows grows, fit.2⟩ (inductionHypothesis others)

/-- With a level around all others the scopes match the frames. -/
theorem match_append (root : String) : scopes.Match (frames ++ [⟨root, []⟩]) := by
  induction fits with
  | nil => exact .outermost
  | cons fit _ inductionHypothesis => exact .level fit.1 inductionHypothesis

/-- The row that is looked up is of the class that is reached. -/
theorem reach_eq {names : List String} {row : Row}
    (resolved : (resolveRow schema names).run scopes = .ok (row, next)) :
    schema.reach frames names = .ok row.className := by
  obtain ⟨found, -, ofRow⟩ := lookup_of_resolveRow resolved
  have some_frame : frames ≠ [] := by
    rintro rfl
    cases fits
    have outside := found.atLevel
    simp at outside
  obtain ⟨item, atStart, located⟩ := (fits.match_append found.root).locate_eq found.located
  have ofRoot : item.className = found.root := by
    simp only [found.atLevel, Option.bind_some, Scope.itemAt?, found.atPlace, Entry.item?,
      found.ofClass, Option.map_some, Option.some.injEq] at atStart
    rw [← atStart]
  rw [locate_append_bare some_frame, ofRoot] at located
  rw [Schema.reach, located, ofRow]
  show schema.classOf found.root found.start.names = _
  rw [Schema.classOf, found.resolved]
  rfl

/-- The collection of a row is that of the class that is reached. -/
theorem collectionAt_eq {owner : List String} {collection : String} {found : CollectionDef}
    {key : ColumnRef}
    (resolved : (resolveCollection schema owner collection).run scopes = .ok ((found, key), next)) :
    schema.collectionAt frames owner collection = .ok found := by
  obtain ⟨row, resolvedRow, -, required⟩ := row_of_resolveCollection resolved
  rw [Schema.collectionAt, fits.reach_eq resolvedRow]
  exact required

end Scopes.FitEach

/-! ## Expressions -/

/-- A class with a table exists. -/
theorem isOk_require_of_requireTable {className table : String}
    (stored : requireTable schema className = .ok table) : (schema.require className).isOk := by
  unfold requireTable at stored
  cases found : schema.find? className with
  | none =>
    simp [Schema.table?, Schema.ancestry, Schema.maxDepth, Schema.ancestryUpTo, found] at stored
  | some c => simp [Schema.require, found]

theorem declared_of_isNullLiteral {e : Expr} (isNull : e.isNullLiteral = true) :
    Declared schema frames e := by
  rw [declared_iff]
  cases e with
  | literal _ => simp [Place.Resolves, Expr.operands, Expr.levelFrame?]
  | _ => cases isNull

/-- A bare `*` stands for the class of bare names. -/
theorem declared_of_isBareAsterisk {e : Expr} {frame : Frame}
    (isBare : e.isBareAsterisk = true)
    (exists_root : (schema.require frame.root).isOk) : Declared schema (frame :: frames) e := by
  rw [declared_iff]
  cases e with
  | asterisk owner =>
    obtain rfl : owner = [] := by
      cases owner with
      | nil => rfl
      | cons _ _ => cases isBare
    obtain ⟨c, required⟩ := exists_eq_ok exists_root
    simp [Place.Resolves, Expr.operands, Expr.levelFrame?, Schema.reach, Schema.locate,
      Schema.classOf, Schema.resolveReferences, Schema.resolveFrom, required]
  | _ => cases isBare

/-- A node without a level has its operands alone. -/
theorem declared_of_operands {e : Expr}
    (flat : e.opensLevel = false)
    (resolves : (⟨frames, e⟩ : Place).Resolves schema)
    (operands : e.isEmptyTest = false → ∀ part ∈ e.operands, Declared schema frames part) :
    Declared schema frames e := by
  refine declared_iff.mpr ⟨resolves, fun entered => ⟨operands entered, ?_⟩⟩
  cases e with
  | query _ | nonempty _ | count _ _ | contains _ _ _ => cases flat
  | _ => exact fun _ opened => nomatch opened

/-- An expression without a level of its own is declared when what is done for it is. -/
theorem declared_of_flat {role : Role} {e : Expr} {t : Term} {frame : Frame}
    (flat : e.opensLevel = false)
    (fits : scopes.FitEach schema (frame :: frames))
    (ran : (e.toTerm schema role).run scopes = .ok (t, next))
    (before : ∀ role part, .term role part ∈ e.tasks → Declared schema (frame :: frames) part) :
    Declared schema (frame :: frames) e := by
  cases e with
  | query _ | nonempty _ | count _ _ | contains _ _ _ => cases flat
  | literal _ | raw _ | parameter _ _ | boolean _ =>
    exact declared_of_operands flat trivial fun _ => List.forall_mem_nil _
  | path p =>
    simp only [Expr.toTerm, resolveColumn, run_bind_eq_ok, run_lift_eq_ok, run_pure_eq_ok] at ran
    obtain ⟨_, _, ⟨row, _, resolved, field, _, ⟨required, rfl⟩, -, -⟩, -, -⟩ := ran
    refine declared_of_operands flat ?_ fun _ => List.forall_mem_nil _
    simp [Place.Resolves, Schema.fieldAt, fits.reach_eq resolved, required]
  | asterisk owner | classTag owner =>
    simp only [Expr.toTerm, run_bind_eq_ok, run_pure_eq_ok] at ran
    obtain ⟨row, _, resolved, -, -⟩ := ran
    refine declared_of_operands flat ?_ fun _ => List.forall_mem_nil _
    simp [Place.Resolves, fits.reach_eq resolved]
  | binary _ left right =>
    refine declared_of_operands flat trivial fun _ =>
      List.forall_mem_cons.mpr ⟨?_, List.forall_mem_singleton.mpr ?_⟩ <;>
      exact before .value _ (by simp [Expr.tasks])
  | and left right | or left right =>
    refine declared_of_operands flat trivial fun _ =>
      List.forall_mem_cons.mpr ⟨?_, List.forall_mem_singleton.mpr ?_⟩ <;>
      exact before .condition _ (by simp [Expr.tasks])
  | negate operand =>
    exact declared_of_operands flat trivial fun _ =>
      List.forall_mem_singleton.mpr (before .value _ (List.mem_singleton_self _))
  | not operand =>
    exact declared_of_operands flat trivial fun _ =>
      List.forall_mem_singleton.mpr (before .condition _ (List.mem_singleton_self _))
  | nullTest operand _ =>
    exact declared_of_operands flat trivial fun _ =>
      List.forall_mem_singleton.mpr (before .plain _ (List.mem_singleton_self _))
  | relational op left right =>
    refine declared_of_operands flat trivial fun _ => List.forall_mem_cons.mpr ?_
    rw [List.forall_mem_singleton]
    cases nulls : nullComparison? op left right with
    | none => exact ⟨before .value _ (by simp [Expr.tasks, nulls]),
        before .value _ (by simp [Expr.tasks, nulls])⟩
    | some negated =>
      have some_null := isNullLiteral_of_nullComparison? nulls
      -- one side is looked at, and the other is null
      cases nullRight : right.isNullLiteral with
      | true =>
        exact ⟨before .plain _ (by simp [Expr.tasks, nulls, nullRight]),
          declared_of_isNullLiteral nullRight⟩
      | false =>
        exact ⟨declared_of_isNullLiteral (some_null.resolve_right (by simp [nullRight])),
          before .plain _ (by simp [Expr.tasks, nulls, nullRight])⟩
  | call _ arguments =>
    refine declared_of_operands flat trivial fun _ part member => ?_
    cases bare : part.isBareAsterisk with
    | true =>
      cases fits with
      | cons fit _ => exact declared_of_isBareAsterisk bare fit.2
    | false =>
      exact before .value part (List.mem_map_of_mem (List.mem_filter.mpr ⟨member, by simp [bare]⟩))
  | oneOf operand candidates =>
    refine declared_of_operands flat trivial fun entered => ?_
    cases candidates with
    | nil => cases entered
    | cons first rest =>
      refine List.forall_mem_cons.mpr ⟨before .value _ List.mem_cons_self, fun part member => ?_⟩
      exact before .value part (List.mem_cons_of_mem _ (List.mem_map_of_mem member))

/-! ## Levels -/

/-- The classes of a from list that is opened exist. -/
theorem isOk_require_of_addSources {items : List FromItem} {start scope : Scope}
    {kept : List Condition}
    (added : addSources schema start items = .ok (scope, kept)) :
    ∀ item ∈ items, (schema.require item.className).isOk := by
  induction items generalizing start kept with
  | nil => exact List.forall_mem_nil _
  | cons item rest inductionHypothesis =>
    obtain ⟨_, required, added⟩ := bind_eq_ok.mp added
    obtain ⟨table, -, added⟩ := bind_eq_ok.mp added
    obtain ⟨_, -, added⟩ := bind_eq_ok.mp added
    obtain ⟨⟨_, others⟩, addedRest, finished⟩ := bind_eq_ok.mp added
    obtain ⟨rfl, rfl⟩ := Prod.mk.inj (Except.ok.inj finished)
    exact List.forall_mem_cons.mpr ⟨by rw [required]; rfl, inductionHypothesis addedRest⟩

/-- The class of the elements of a collection exists where something is said about them. -/
theorem isOk_require_of_membership {depth : Nat} {collection : CollectionDef} {key : ColumnRef}
    {setup : Membership}
    (opened : membership schema depth collection key true = .ok setup) :
    (schema.require collection.element).isOk := by
  rw [membership] at opened
  split at opened
  · next element _ storage =>
    obtain ⟨table, stored, -⟩ := bind_eq_ok.mp opened
    rw [show collection.element = element by simp [CollectionDef.element, storage]]
    exact isOk_require_of_requireTable stored
  · next element _ _ _ storage =>
    obtain ⟨table, stored, -⟩ := bind_eq_ok.mp opened
    rw [show collection.element = element by simp [CollectionDef.element, storage]]
    exact isOk_require_of_requireTable stored

/-- An expression with a level of its own is declared when what is done for it is, in the scopes at
hand and in the level. -/
theorem Opens.declared {e : Expr} {below : Scopes} {scope : Scope} {body : List Task}
    (opens : Opens schema e scopes below scope body)
    (fits : scopes.FitEach schema frames)
    (before : ∀ role part, .term role part ∈ e.tasks → Declared schema frames part)
    (inside : ∀ frame, scope.Fits frame → (schema.require frame.root).isOk →
      ∀ role part, .term role part ∈ body → Declared schema (frame :: frames) part) :
    Declared schema frames e := by
  rw [declared_iff]
  cases opens with
  | query some_source added | nonempty some_source added =>
    refine ⟨isOk_require_of_addSources added, fun _ => ⟨List.forall_mem_nil _, ?_⟩⟩
    obtain ⟨first, rest, sources⟩ := List.exists_cons_of_ne_nil some_source
    intro frame opened part member
    obtain rfl : (⟨first.className, first :: rest⟩ : Frame) = frame := by
      simpa [Expr.levelFrame?, sources] using opened
    rw [sources] at added
    have exists_root := isOk_require_of_addSources added first List.mem_cons_self
    obtain ⟨role, isTask⟩ := exists_mem_tasks_iff.mpr member
    exact inside _ (fits_of_addSources added) exists_root role part isTask
  | count resolved opened =>
    have found := fits.collectionAt_eq resolved
    refine ⟨by simp [Place.Resolves, found], fun _ => ⟨List.forall_mem_nil _, ?_⟩⟩
    exact fun _ _ => List.forall_mem_nil _
  | value kind resolved _ opened =>
    have found := fits.collectionAt_eq resolved
    refine ⟨by simp [Place.Resolves, found], fun _ => ⟨?_, ?_⟩⟩
    · simp only [Expr.operands, kind, Bool.false_eq_true, if_false, List.forall_mem_singleton]
      exact before .value _ (by simp [Expr.tasks, kind])
    · simp [Expr.clauses, kind]
  | condition kind resolved opened =>
    have found := fits.collectionAt_eq resolved
    refine ⟨by simp [Place.Resolves, found], fun _ => ⟨by simp [Expr.operands, kind], ?_⟩⟩
    simp only [Expr.levelFrame?, found, Except.toOption, Option.map_some, Option.mem_some_iff,
      forall_eq', Expr.clauses, kind, if_true, List.forall_mem_singleton]
    obtain ⟨-, fit⟩ := fits_of_membership opened
    exact inside _ (fit rfl) (isOk_require_of_membership opened) .plain _
      (List.mem_singleton_self _)

/-! ## Courses -/

/-- Along a course of tasks every expression is declared. -/
theorem Runs.declared {tasks : List Task} {last : Scopes} {terms : List Term} {frame : Frame}
    (runs : Runs schema tasks scopes terms last)
    (fits : scopes.FitEach schema (frame :: frames)) :
    ∀ role e, .term role e ∈ tasks → Declared schema (frame :: frames) e := by
  -- the frames stay the same along the course, and the scopes keep fitting them as they grow
  induction runs generalizing frame frames with
  | nil => exact fun _ _ member => absurd member List.not_mem_nil
  | row _ _ grow _ inductionLater =>
    intro role e member
    exact inductionLater (fits.grow grow) role e (by simpa using member)
  | flat _ ran noLevel _ grow _ _ inductionInside inductionLater =>
    intro role e member
    rcases List.mem_cons.mp member with same | isLater
    · obtain ⟨rfl, rfl⟩ := Task.term.inj same
      exact declared_of_flat noLevel fits ran (inductionInside fits)
    · exact inductionLater (fits.grow grow) role e isLater
  | level _ _ run growBelow _ growNext _ _ _ inductionBefore inductionInside inductionLater =>
    intro role e member
    have fitsBelow := fits.grow growBelow
    rcases List.mem_cons.mp member with same | isLater
    · obtain ⟨rfl, rfl⟩ := Task.term.inj same
      refine run.opens.declared fits (inductionBefore fits) fun frame fit exists_root => ?_
      exact inductionInside (.cons ⟨fit, exists_root⟩ fitsBelow)
    · exact inductionLater (fitsBelow.grow growNext) role e isLater

/-- A query that is translated is declared. -/
theorem declared_of_toSelect {q : Query} {statement : Select}
    (ran : schema.toSelect q = .ok statement) : Declared schema [] (.query q) := by
  obtain ⟨last, ranAll⟩ := Query.run_of_toSelect ran
  cases runs_of_runInTurn Scopes.stacked_nil ranAll with
  | flat _ _ noLevel => cases noLevel
  | level _ _ run growBelow _ _ _ inside _ =>
    refine run.opens.declared .nil (fun _ _ member => absurd member List.not_mem_nil) ?_
    intro frame fit exists_root
    have fitsBelow : run.below.FitEach schema [] := Scopes.FitEach.grow .nil growBelow
    exact inside.declared (.cons ⟨fit, exists_root⟩ fitsBelow)

/-- In a query that is translated every place resolves, but for those in the operands of membership
tests without candidates; a query that is not translated fails by the schema. -/
theorem declared_of_toSql (schema : Schema) (config : Config) (q : Query) :
    (∀ text, schema.toSql config q = .ok text →
      ∀ place, Place.Has schema (·.isEmptyTest = false) ⟨[], .query q⟩ place →
        place.Resolves schema) ∧
      ∀ error, schema.toSql config q = .error error → error.kind = .schemaResolution := by
  constructor
  · intro text translated
    obtain ⟨statement, ran, -⟩ := bind_eq_ok.mp translated
    exact declared_of_toSelect ran
  · exact (failsBySchema_toSelect q).bind fun _ _ => .of_ok _

/-- `Members.Contains(PrimaryGroup.Name = Group.Name)` -/
def sameNamedMember : Expr :=
  .contains [] "Members"
    (.relational .equal (.path ⟨["PrimaryGroup"], "Name"⟩) (.path ⟨["Group"], "Name"⟩))

/-- `select Name from Group where Members.Contains(PrimaryGroup.Name = Group.Name)` -/
def sameNamedMembers : Query :=
  ⟨false, [⟨.path ⟨[], "Name"⟩, none⟩], [⟨"Group", none⟩], some sameNamedMember, [], none, []⟩

/-- Within the test the name of the enclosing class leads to its field. -/
theorem resolves_sameNamedMembers :
    ∃ text, clubSchema.toSql .standard sameNamedMembers = .ok text ∧
      (⟨[.ofClass "Contact", .ofClass "Group"],
        .path ⟨["Group"], "Name"⟩⟩ : Place).Resolves clubSchema := by
  obtain ⟨statement, ran⟩ : ∃ statement, clubSchema.toSelect sameNamedMembers = .ok statement :=
    exists_eq_ok (by cbv)
  have translated : clubSchema.toSql .standard sameNamedMembers = .ok (statement.text .standard) :=
    bind_eq_ok.mpr ⟨statement, ran, rfl⟩
  have test : (⟨[.ofClass "Group"], sameNamedMember⟩ : Place)
      ∈ (⟨[], .query sameNamedMembers⟩ : Place).parts clubSchema :=
    Place.mem_parts.mpr (.inr ⟨_, rfl, .tail _ (.head _), rfl⟩)
  have comparison : (⟨[.ofClass "Contact", .ofClass "Group"],
      .relational .equal (.path ⟨["PrimaryGroup"], "Name"⟩) (.path ⟨["Group"], "Name"⟩)⟩ : Place)
      ∈ (⟨[.ofClass "Group"], sameNamedMember⟩ : Place).parts clubSchema :=
    Place.mem_parts.mpr (.inr ⟨.ofClass "Contact", by cbv, .head _, rfl⟩)
  refine ⟨_, translated, (declared_of_toSql clubSchema .standard sameNamedMembers).1 _ translated
    _ (.head ⟨rfl, test⟩ (.head ⟨rfl, comparison⟩ (.single ⟨rfl, ?_⟩)))⟩
  exact Place.mem_parts.mpr (.inl ⟨.tail _ (.head _), rfl⟩)

/-- `select Name from Group where Nickname in ()` -/
def noNicknames : Query :=
  ⟨false, [⟨.path ⟨[], "Name"⟩, none⟩], [⟨"Group", none⟩],
    some (.oneOf (.path ⟨[], "Nickname"⟩) []), [], none, []⟩

/-- A field that is not declared goes unnoticed where it is tested for none of any values. -/
theorem not_resolves_noNicknames :
    ∃ text place, clubSchema.toSql .standard noNicknames = .ok text ∧
      Place.Has clubSchema (fun _ => True) ⟨[], .query noNicknames⟩ place ∧
        ¬place.Resolves clubSchema := by
  obtain ⟨statement, ran⟩ : ∃ statement, clubSchema.toSelect noNicknames = .ok statement :=
    exists_eq_ok (by cbv)
  have translated : clubSchema.toSql .standard noNicknames = .ok (statement.text .standard) :=
    bind_eq_ok.mpr ⟨statement, ran, rfl⟩
  have test : (⟨[.ofClass "Group"], .oneOf (.path ⟨[], "Nickname"⟩) []⟩ : Place)
      ∈ (⟨[], .query noNicknames⟩ : Place).parts clubSchema :=
    Place.mem_parts.mpr (.inr ⟨_, rfl, .tail _ (.head _), rfl⟩)
  have unknown :
      (clubSchema.fieldAt [.ofClass "Group"] ⟨[], "Nickname"⟩).isOk = false := by
    cbv
  refine ⟨_, ⟨[.ofClass "Group"], .path ⟨[], "Nickname"⟩⟩, translated, ?_,
    Bool.eq_false_iff.mp unknown⟩
  exact .head ⟨trivial, test⟩
    (.single ⟨trivial, Place.mem_parts.mpr (.inl ⟨.head _, rfl⟩)⟩)

end ObjectQuery.Sql

import ObjectQuery.Proofs.Sql.Scoping

/-!
Contract: when a nested select declares a table again that a select around it declares.

The names of a level begin with the stem of its depth, and its depth is the number of scopes at hand
when it is opened. A scalar argument of a collection test is translated before the level of the test
is opened, and its selects stand in that level: they are as deep as it is and repeat its names.
Nothing else does.

Owns: `Select.Unshadowed` and `Select.Staged`, and the exact condition for them.
-/

namespace ObjectQuery

open Sql

/-- What is done for a node in the level that it opens. -/
def Expr.body : Expr → List Task
  | .query q | .nonempty q => q.tasks
  | .contains _ _ element => if element.isBoolean then [.term .plain element] else []
  | _ => []

/-- A level is opened for a node, or for a part of it in the same scopes. -/
inductive Expr.Nests : Expr → Prop
  | here {e : Expr} (opens : e.opensLevel = true) : Nests e
  | part {role : Role} {e part : Expr} (member : .term role part ∈ e.tasks) (nests : part.Nests) :
      Nests e

/-- Somewhere in a node, in its own level or a nested one, a level is opened for a scalar argument
of a collection test. -/
inductive Expr.NestsInArgument : Expr → Prop
  | here {owner : List String} {collection : String} {element : Expr}
      (kind : element.isBoolean = false)
      (nests : element.Nests) : NestsInArgument (.contains owner collection element)
  | part {role : Role} {e part : Expr}
      (member : .term role part ∈ e.tasks)
      (inner : part.NestsInArgument) : NestsInArgument e
  | body {role : Role} {e part : Expr}
      (member : .term role part ∈ e.body)
      (inner : part.NestsInArgument) : NestsInArgument e

namespace Sql

/-- Among selects that declare tables of these names, neither a select nor one nested in it declares
one again that is declared around it. -/
inductive Select.Unshadowed : List String → Select → Prop
  | intro {known : List String} {select : Select}
      (fresh : ∀ name ∈ select.declared, name.text ∉ known)
      (nested : ∀ inner ∈ select.nested,
        Unshadowed (known ++ select.declared.map (·.text)) inner) :
      Unshadowed known select

/-- The tables that a select declares are of this depth, and those of the selects nested in it are
one deeper. -/
inductive Select.Staged : Nat → Select → Prop
  | intro {depth : Nat} {select : Select}
      (declared : ∀ name ∈ select.declared, name.depth = depth)
      (nested : ∀ inner ∈ select.nested, Staged (depth + 1) inner) :
      Staged depth select

/-- Fewer tables around a select do no harm. -/
theorem Select.Unshadowed.mono
    {known fewer : List String}
    {select : Select}
    (valid : select.Unshadowed known)
    (included : fewer ⊆ known) : select.Unshadowed fewer := by
  induction valid generalizing fewer with
  | @intro known select fresh _ inductionHypothesis =>
    refine .intro (fun name member isKnown => fresh name member (included isKnown)) ?_
    exact fun inner member => inductionHypothesis inner member
      (List.append_subset.mpr ⟨List.Subset.trans included (List.subset_append_left _ _),
        List.subset_append_right _ _⟩)

/-- Where every select is deeper than the one around it, no name is declared again. -/
theorem Select.Staged.unshadowed
    {depth : Nat}
    {select : Select}
    (staged : select.Staged depth)
    {around : List RowAlias}
    (outer : ∀ name ∈ around, name.depth < depth) :
    select.Unshadowed (around.map (·.text)) := by
  induction staged generalizing around with
  | @intro depth select declared _ inductionHypothesis =>
    refine .intro ?_ fun inner member => ?_
    · intro name member isKnown
      obtain ⟨known, isAround, same⟩ := List.mem_map.mp isKnown
      obtain rfl := RowAlias.text_injective same
      exact absurd (outer known isAround) (by rw [declared known member]; exact Nat.lt_irrefl _)
    · rw [← List.map_append]
      refine inductionHypothesis inner member (List.forall_mem_append.mpr ⟨?_, ?_⟩)
      · exact fun name isAround => Nat.lt_succ_of_lt (outer name isAround)
      · exact fun name isDeclared => declared name isDeclared ▸ Nat.lt_succ_self _

variable {schema : Schema}

/-! ## Selects along a course -/

theorem Opens.body_eq {e : Expr} {scopes below : Scopes} {scope : Scope} {body : List Task}
    (opens : Opens schema e scopes below scope body) : body = e.body := by
  cases opens with
  | query | nonempty | count => rfl
  | condition kind | value kind => simp [Expr.body, kind]

/-- The select of a level declares tables as deep as the level, its first one among them. -/
theorem LevelRun.declared
    {e : Expr}
    {t : Term}
    {scopes scopes' : Scopes}
    (run : LevelRun schema e scopes t scopes')
    (stacked : scopes.Stacked) :
    (∀ name ∈ run.select.declared, name.depth = scopes.length) ∧
      ⟨scopes.length, 0⟩ ∈ run.select.declared := by
  obtain ⟨stackedInside, growBelow⟩ := run.opens.stacked stacked
  have runs := runs_of_runInTurn stackedInside run.inside
  obtain ⟨built, -, -⟩ := runs.stacked_last
  obtain ⟨grows, -⟩ := List.forall₂_cons.mp runs.grow
  obtain ⟨opened, some⟩ := run.opens.opened
  have sameDepth : run.last.depth = scopes.length :=
    (grows.depth_eq.trans opened.depth_eq).trans growBelow.length_eq.symm
  rw [Select.declared, run.sources_eq]
  refine ⟨fun name member => ?_, built.mem_declared.mpr (grows.names_subset ?_)⟩
  · exact (built.names_numbered name (built.mem_declared.mp member)).1.trans sameDepth
  · rw [opened.names_eq_range, growBelow.length_eq]
    exact List.mem_map_of_mem (List.mem_range.mpr some)

end Sql

theorem Expr.nests_iff {e : Expr} :
    e.Nests ↔ e.opensLevel = true ∨ ∃ role part, .term role part ∈ e.tasks ∧ part.Nests := by
  constructor
  · rintro (opens | ⟨member, nests⟩)
    · exact .inl opens
    · exact .inr ⟨_, _, member, nests⟩
  · rintro (opens | ⟨_, _, member, nests⟩)
    · exact .here opens
    · exact .part member nests

/-- What is done for a node before its level is opened is done for a scalar argument. -/
theorem Expr.NestsInArgument.of_task {role : Role} {e part : Expr}
    (opens : e.opensLevel = true)
    (member : .term role part ∈ e.tasks)
    (nests : part.Nests) : e.NestsInArgument := by
  cases e with
  | literal _ | raw _ | parameter _ _ | boolean _ | path _ | asterisk _ | classTag _ | binary _ _ _
  | and _ _ | or _ _ | negate _ | not _ | nullTest _ _ | call _ _ | relational _ _ _
  | oneOf _ _ => cases opens
  | query _ | nonempty _ => cases member
  | count _ _ => simp [Expr.tasks] at member
  | contains owner collection element =>
    cases kind : element.isBoolean <;> simp [Expr.tasks, kind] at member
    obtain ⟨-, rfl⟩ := member
    exact .here kind nests

theorem Expr.body_eq_nil {e : Expr} (flat : e.opensLevel = false) : e.body = [] := by
  cases e with
  | query _ | nonempty _ | contains _ _ _ => cases flat
  | _ => rfl

namespace Sql

section

variable {tasks : List Task} {scopes last : Scopes} {terms : List Term}

/-- Selects stand in the terms of a course when a level is opened for one of its expressions. -/
theorem Runs.nested_eq_nil_iff (runs : Runs schema tasks scopes terms last) :
    terms.flatMap Term.nested = [] ↔ ∀ role e, .term role e ∈ tasks → ¬e.Nests := by
  induction runs with
  | nil => simp
  | row _ _ _ _ inductionLater => simpa [Term.nested] using inductionLater
  | @flat _ e _ _ _ _ _ _ _ _ noLevel run _ _ _ inductionInside inductionLater =>
    have first : e.Nests ↔ ∃ role part, .term role part ∈ e.tasks ∧ part.Nests :=
      Expr.nests_iff.trans (by simp [noLevel])
    simp [run.nested_eq, inductionInside, inductionLater, first, or_imp, forall_and]
  | level _ _ run =>
    have nests := Expr.Nests.here run.opens.opensLevel
    simp only [List.flatMap_cons, run.nested_eq, List.cons_append, List.nil_append,
      List.cons_ne_nil, false_iff]
    exact fun none => none _ _ List.mem_cons_self nests

/-- Each select in the terms of a course declares the first table of its depth. -/
theorem Runs.first_declared (runs : Runs schema tasks scopes terms last) :
    ∀ select ∈ terms.flatMap Term.nested, ⟨scopes.length, 0⟩ ∈ select.declared := by
  intro select member
  obtain ⟨role, e, before, t, next, meets, sameLength, ran, isSelect, nests⟩ :=
    runs.exists_met_of_nested member
  obtain ⟨run⟩ := exists_levelRun nests ran
  obtain rfl := List.singleton_inj.mp (run.nested_eq.symm.trans isSelect)
  rw [← sameLength]
  exact (run.declared (meets.stacked runs.stacked)).2

/-- Without levels in scalar arguments, every select is deeper than the one around it. -/
theorem Runs.staged
    (runs : Runs schema tasks scopes terms last)
    (clear : ∀ role e, .term role e ∈ tasks → ¬e.NestsInArgument) :
    ∀ select ∈ terms.flatMap Term.nested, select.Staged scopes.length := by
  have rest {task : Task} {others : List Task}
      (clear : ∀ role e, .term role e ∈ task :: others → ¬e.NestsInArgument) :
      ∀ role e, .term role e ∈ others → ¬e.NestsInArgument :=
    fun role e member => clear role e (List.mem_cons_of_mem _ member)
  induction runs with
  | nil => exact fun _ member => nomatch member
  | row _ _ grow _ inductionLater =>
    rw [grow.length_eq]
    exact inductionLater (rest clear)
  | flat _ _ _ run grow _ _ inductionInside inductionLater =>
    have clearFirst := clear _ _ List.mem_cons_self
    rw [List.flatMap_cons, run.nested_eq]
    refine List.forall_mem_append.mpr ⟨inductionInside fun role part member nests => ?_, ?_⟩
    · exact clearFirst (.part member nests)
    · rw [grow.length_eq]
      exact inductionLater (rest clear)
  | level stacked _ run growBelow _ growNext before _ _ _ inductionInside inductionLater =>
    have clearFirst := clear _ _ List.mem_cons_self
    have noParts : run.parts.flatMap Term.nested = [] :=
      before.nested_eq_nil_iff.mpr fun role part member nests =>
        clearFirst (.of_task run.opens.opensLevel member nests)
    have stagedBody := inductionInside fun role part member nests =>
      clearFirst (.body (run.opens.body_eq ▸ member) nests)
    rw [List.flatMap_cons, run.nested_eq]
    refine List.forall_mem_append.mpr ⟨List.forall_mem_singleton.mpr (.intro ?_ ?_), ?_⟩
    · exact (run.declared stacked).1
    · rw [run.nested_in_eq, noParts, List.nil_append, growBelow.length_eq]
      exact stagedBody
    · rw [growBelow.length_eq, growNext.length_eq]
      exact inductionLater (rest clear)

/-- A level in a scalar argument declares a name again. -/
theorem Runs.not_nestsInArgument
    (runs : Runs schema tasks scopes terms last)
    (unshadowed : ∀ select ∈ terms.flatMap Term.nested, select.Unshadowed []) :
    ∀ role e, .term role e ∈ tasks → ¬e.NestsInArgument := by
  induction runs with
  | nil => exact fun _ _ member => nomatch member
  | row _ _ _ _ inductionLater =>
    simpa using inductionLater (by simpa [Term.nested] using unshadowed)
  | flat _ _ noLevel run _ _ _ inductionInside inductionLater =>
    rw [List.flatMap_cons, run.nested_eq] at unshadowed
    obtain ⟨first, others⟩ := List.forall_mem_append.mp unshadowed
    intro role e member nests
    rcases List.mem_cons.mp member with same | isRest
    · obtain ⟨-, rfl⟩ := Task.term.inj same
      cases nests with
      | here => cases noLevel
      | part member inner => exact inductionInside first _ _ member inner
      | body member _ =>
        rw [Expr.body_eq_nil noLevel] at member
        cases member
    · exact inductionLater others role e isRest nests
  | level stacked _ run _ _ _ before _ _ inductionBefore inductionInside inductionLater =>
    rw [List.flatMap_cons, run.nested_eq] at unshadowed
    obtain ⟨first, others⟩ := List.forall_mem_append.mp unshadowed
    obtain ⟨-, nested⟩ := List.forall_mem_singleton.mp first
    rw [run.nested_in_eq] at nested
    obtain ⟨inParts, inBody⟩ := List.forall_mem_append.mp nested
    intro role e member nests
    rcases List.mem_cons.mp member with same | isRest
    · obtain ⟨-, rfl⟩ := Task.term.inj same
      cases nests with
      | @here owner collection element kind nests =>
        -- The level in the argument is as deep as that of the test, and both have a first table.
        have some : run.parts.flatMap Term.nested ≠ [] := fun none =>
          before.nested_eq_nil_iff.mp none .value element (by simp [Expr.tasks, kind]) nests
        obtain ⟨inner, member⟩ := List.exists_mem_of_ne_nil _ some
        obtain ⟨fresh, -⟩ := inParts inner member
        exact fresh _ (before.first_declared inner member)
          (List.mem_append_right _ (List.mem_map_of_mem (run.declared stacked).2))
      | part member inner =>
        exact inductionBefore
          (fun select member => (inParts select member).mono (List.nil_subset _)) _ _ member inner
      | body member inner =>
        exact inductionInside (fun select member => (inBody select member).mono (List.nil_subset _))
          _ _ (run.opens.body_eq ▸ member) inner
    · exact inductionLater others role e isRest nests

end

/-- A statement declares no name again around which it is declared already just when no level is
opened for a scalar argument of a collection test in its query. Then each select is one level deeper
than the one around it. -/
theorem unshadowed_iff_of_toSelect
    (schema : Schema)
    (query : Query)
    (statement : Select)
    (ran : schema.toSelect query = .ok statement) :
    (statement.Unshadowed [] ↔ ¬(Expr.query query).NestsInArgument) ∧
      (statement.Unshadowed [] → statement.Staged 0) := by
  obtain ⟨last, ranAll⟩ := Query.run_of_toSelect ran
  have runs := runs_of_runInTurn Scopes.stacked_nil ranAll
  have clear (unshadowed : statement.Unshadowed []) : ¬(Expr.query query).NestsInArgument :=
    runs.not_nestsInArgument (by simpa [Term.nested] using unshadowed) _ _ List.mem_cons_self
  have staged (clear : ¬(Expr.query query).NestsInArgument) : statement.Staged 0 :=
    runs.staged (by simpa using clear) statement (by simp [Term.nested])
  have none : ∀ name ∈ ([] : List RowAlias), name.depth < 0 := List.forall_mem_nil _
  exact ⟨⟨clear, fun isClear => (staged isClear).unshadowed none⟩,
    fun unshadowed => staged (clear unshadowed)⟩

/-- Groups and their contacts. -/
def clubSchema : Schema :=
  ⟨[("Group",
      (ClassDef.stored "Group" "_group").withPrimaryKey "Id" "id"
        |>.withField (.plain "Name" "name" .string)
        |>.withCollection ⟨"Members", .oneToMany "Contact" "PrimaryGroup"⟩),
    ("Contact",
      (ClassDef.stored "Contact" "contact").withPrimaryKey "Id" "id"
        |>.withField (.reference "PrimaryGroup" "primary_group" "Group"))]⟩

/-- `select Name from Group where Members.Contains(Members.Count)` -/
def countedMember : Query :=
  ⟨false, [⟨.path ⟨[], "Name"⟩, none⟩], [⟨"Group", none⟩],
    some (.contains [] "Members" (.count [] "Members")), [], none, []⟩

/-- The select that counts the members and the one that looks for the member around it both declare
`u0`. -/
theorem not_unshadowed_countedMember :
    ∃ statement, clubSchema.toSelect countedMember = .ok statement ∧
      ¬statement.Unshadowed [] := by
  obtain ⟨statement, ran⟩ : ∃ statement, clubSchema.toSelect countedMember = .ok statement :=
    exists_eq_ok (by cbv)
  have inTest : (Expr.contains [] "Members" (.count [] "Members")).NestsInArgument :=
    .here rfl (.here rfl)
  have isCondition : .term .condition (.contains [] "Members" (.count [] "Members"))
      ∈ (Expr.query countedMember).body := by
    simp [Expr.body, countedMember, Query.tasks]
  obtain ⟨iff, -⟩ := unshadowed_iff_of_toSelect clubSchema countedMember statement ran
  exact ⟨statement, ran, fun unshadowed => iff.mp unshadowed (.body isCondition inTest)⟩

end Sql

end ObjectQuery

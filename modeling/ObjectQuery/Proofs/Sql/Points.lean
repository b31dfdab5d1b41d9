import Mathlib.Logic.Relation
import ObjectQuery.Proofs.Sql.Courses

/-!
Contract: the points that a course of tasks passes.

Owns:
- `Meets` and `Task.Passes`, the tasks that a course comes to and the scopes at every point of it;
- `Query.Meets` and `Query.Reaches`, the same for the translation of a query;
- `Level`, the levels of a query, each of which becomes a select of the statement with the
  restrictions of its classes.

Does not own: what holds at these points.
-/

namespace ObjectQuery.Sql

variable {schema : Schema}

/-! ## Points of a course -/

/-- A course of tasks that starts in some scopes comes to a task in some scopes: to its first task,
to what the others come to behind it, and to what the tasks and the body of an expression come
to. -/
inductive Meets (schema : Schema) : List Task → Scopes → Task → Scopes → Prop
  | here {task : Task} {rest : List Task} {scopes : Scopes} :
      Meets schema (task :: rest) scopes task scopes
  | later {task met : Task} {rest : List Task} {scopes next scopes' : Scopes} {t : Term}
      (ran : (task.run schema).run scopes = .ok (t, next))
      (meets : Meets schema rest next met scopes') :
      Meets schema (task :: rest) scopes met scopes'
  | part {role : Role} {e : Expr} {met : Task} {rest : List Task} {scopes scopes' : Scopes}
      (meets : Meets schema e.tasks scopes met scopes') :
      Meets schema (.term role e :: rest) scopes met scopes'
  | level {role : Role} {e : Expr} {met : Task} {rest body : List Task}
      {scopes below scopes' : Scopes} {scope : Scope}
      (opens : Opens schema e scopes below scope body)
      (meets : Meets schema body (scope :: below) met scopes') :
      Meets schema (.term role e :: rest) scopes met scopes'

/-- The scopes that a task passes itself: those that it starts and ends with, those after some of
the references that a look-up goes along, and those of a level that is opened. -/
inductive Task.Passes (schema : Schema) : Task → Scopes → Scopes → Prop
  | start {task : Task} {scopes : Scopes} : Passes schema task scopes scopes
  | along {names : List String} {scopes between : Scopes} {done rest : List Step} {last : RowAlias}
      (found : Lookup schema scopes names)
      (split : found.steps = done ++ rest)
      (ran : (joinAlong schema found.start.level found.start.entry found.entry.name done).run scopes
        = .ok (last, between)) :
      Passes schema (.row names) scopes between
  | opened {role : Role} {e : Expr} {scopes below : Scopes} {scope : Scope} {body : List Task}
      (opens : Opens schema e scopes below scope body) :
      Passes schema (.term role e) scopes (scope :: below)
  | finish {task : Task} {scopes next : Scopes} {t : Term}
      (ran : (task.run schema).run scopes = .ok (t, next)) :
      Passes schema task scopes next

theorem Meets.stacked {tasks : List Task} {task : Task} {scopes scopes' : Scopes}
    (meets : Meets schema tasks scopes task scopes')
    (stacked : scopes.Stacked) : scopes'.Stacked := by
  induction meets with
  | here => exact stacked
  | later ran _ inductionHypothesis =>
    exact inductionHypothesis (Task.runs stacked ran).stacked_last
  | part _ inductionHypothesis => exact inductionHypothesis stacked
  | level opens _ inductionHypothesis => exact inductionHypothesis (opens.stacked stacked).1

/-- What the tasks of a met expression come to is met as well. -/
theorem Meets.trans_part {tasks : List Task} {role : Role} {e : Expr} {task : Task}
    {scopes scopes' scopes'' : Scopes}
    (meets : Meets schema tasks scopes (.term role e) scopes')
    (inside : Meets schema e.tasks scopes' task scopes'') :
    Meets schema tasks scopes task scopes'' := by
  generalize same : Task.term role e = met at meets
  induction meets with
  | here => exact same ▸ .part inside
  | later ran _ inductionHypothesis => exact .later ran (inductionHypothesis inside same)
  | part _ inductionHypothesis => exact .part (inductionHypothesis inside same)
  | level opens _ inductionHypothesis => exact .level opens (inductionHypothesis inside same)

/-- What the level of a met expression comes to is met as well. -/
theorem Meets.trans_level {tasks body : List Task} {role : Role} {e : Expr} {task : Task}
    {scopes scopes' scopes'' below : Scopes} {scope : Scope}
    (meets : Meets schema tasks scopes (.term role e) scopes')
    (opens : Opens schema e scopes' below scope body)
    (inside : Meets schema body (scope :: below) task scopes'') :
    Meets schema tasks scopes task scopes'' := by
  generalize same : Task.term role e = met at meets
  induction meets with
  | here => exact same ▸ .level opens inside
  | later ran _ inductionHypothesis => exact .later ran (inductionHypothesis opens same)
  | part _ inductionHypothesis => exact .part (inductionHypothesis opens same)
  | level opens' _ inductionHypothesis =>
    exact .level opens' (inductionHypothesis opens same)

theorem Task.Passes.stacked {task : Task} {scopes between : Scopes}
    (passes : task.Passes schema scopes between)
    (stacked : scopes.Stacked) : between.Stacked := by
  cases passes with
  | start => exact stacked
  | along found _ ran => exact (found.keepsStacked stacked ran).1
  | opened opens => exact (opens.stacked stacked).1
  | finish ran => exact (Task.runs stacked ran).stacked_last

/-- A select stands in another at some depth, or is the other. -/
def Select.Within (outer inner : Select) : Prop :=
  Relation.ReflTransGen (fun select part => part ∈ select.nested) outer inner

/-- Each select in the terms of a course is that of an expression which the course comes to, as deep
as the course itself. -/
theorem Runs.exists_met_of_nested {tasks : List Task} {scopes last : Scopes} {terms : List Term}
    (runs : Runs schema tasks scopes terms last)
    {select : Select}
    (member : select ∈ terms.flatMap Term.nested) :
    ∃ role e before t next, Meets schema tasks scopes (.term role e) before ∧
      before.length = scopes.length ∧ (e.toTerm schema role).run before = .ok (t, next) ∧
        t.nested = [select] ∧ e.opensLevel = true := by
  induction runs with
  | nil => cases member
  | row _ resolved grow _ inductionLater =>
    obtain ⟨role, e, before, t, next, meets, sameLength, gives⟩ :=
      inductionLater (by simpa [Term.nested] using member)
    exact ⟨role, e, before, t, next, .later (run_row_eq_ok.mpr ⟨_, resolved, rfl⟩) meets,
      sameLength.trans grow.length_eq.symm, gives⟩
  | flat _ ran _ run grow _ _ inductionInside inductionLater =>
    rw [List.flatMap_cons, List.mem_append, run.nested_eq] at member
    rcases member with inFirst | inRest
    · obtain ⟨role, e, before, t, next, meets, gives⟩ := inductionInside inFirst
      exact ⟨role, e, before, t, next, .part meets, gives⟩
    · obtain ⟨role, e, before, t, next, meets, sameLength, gives⟩ := inductionLater inRest
      exact ⟨role, e, before, t, next, .later ran meets,
        sameLength.trans grow.length_eq.symm, gives⟩
  | level _ ran run growBelow _ growNext _ _ _ _ _ inductionLater =>
    rw [List.flatMap_cons, List.mem_append, run.nested_eq, List.mem_singleton] at member
    rcases member with rfl | inRest
    · exact ⟨_, _, _, _, _, .here, rfl, ran, run.nested_eq, run.opens.opensLevel⟩
    · obtain ⟨role, e, before, t, next, meets, sameLength, gives⟩ := inductionLater inRest
      exact ⟨role, e, before, t, next, .later ran meets,
        sameLength.trans (growBelow.trans growNext).length_eq.symm, gives⟩

/-- Each select within the terms of a course is that of an expression which the course comes to. -/
theorem exists_met_of_within {tasks : List Task} {scopes last : Scopes} {terms : List Term}
    (stacked : scopes.Stacked)
    (ran : (runInTurn schema tasks).run scopes = .ok (terms, last))
    {outer select : Select}
    (member : outer ∈ terms.flatMap Term.nested)
    (within : outer.Within select) :
    ∃ role e before t next, Meets schema tasks scopes (.term role e) before ∧
      (e.toTerm schema role).run before = .ok (t, next) ∧ t.nested = [select] ∧
        e.opensLevel = true := by
  induction within with
  | refl =>
    obtain ⟨role, e, before, t, next, meets, -, gives⟩ :=
      (runs_of_runInTurn stacked ran).exists_met_of_nested member
    exact ⟨role, e, before, t, next, meets, gives⟩
  | tail _ isPart inductionHypothesis =>
    obtain ⟨role, e, before, t, next, meets, ranOuter, isSelect, nests⟩ := inductionHypothesis
    obtain ⟨run⟩ := exists_levelRun nests ranOuter
    obtain rfl := List.singleton_inj.mp (run.nested_eq.symm.trans isSelect)
    rw [run.nested_in_eq, List.mem_append] at isPart
    have stackedBefore := meets.stacked stacked
    obtain ⟨stackedInside, -⟩ := run.opens.stacked stackedBefore
    rcases isPart with inParts | inClauses
    · obtain ⟨role', e', before', t', next', meets', -, gives⟩ :=
        (runs_of_runInTurn stackedBefore run.before).exists_met_of_nested inParts
      exact ⟨role', e', before', t', next', meets.trans_part meets', gives⟩
    · obtain ⟨role', e', before', t', next', meets', -, gives⟩ :=
        (runs_of_runInTurn stackedInside run.inside).exists_met_of_nested inClauses
      exact ⟨role', e', before', t', next', meets.trans_level run.opens meets', gives⟩

/-- The tasks of an expression that is translated are done. Their selects are within its own, and
the scopes that they leave are those of the whole expression or less. -/
theorem ran_tasks_of_toTerm {role : Role} {e : Expr} {t : Term} {scopes next : Scopes}
    (stacked : scopes.Stacked)
    (ran : (e.toTerm schema role).run scopes = .ok (t, next)) :
    ∃ parts below, (runInTurn schema e.tasks).run scopes = .ok (parts, below) ∧
      (∀ inner ∈ parts.flatMap Term.nested, ∃ outer ∈ t.nested, outer.Within inner) ∧
        below.Grow next := by
  cases runs_of_toTerm e stacked ran with
  | flat _ _ _ run _ _ done =>
    cases done
    exact ⟨run.parts, next, run.ran, fun inner member => ⟨inner, run.nested_eq ▸ member, .refl⟩,
      .refl next⟩
  | level _ _ run _ _ growNext _ _ done =>
    cases done
    refine ⟨run.parts, run.below, run.before, fun inner member => ⟨run.select, ?_, .single ?_⟩,
      growNext⟩
    · rw [run.nested_eq]
      exact List.mem_singleton_self _
    · rw [run.nested_in_eq]
      exact List.mem_append_left _ member

/-- In a course that runs to its end every task that it comes to is done. What the scopes have then
is in those at the end, and the selects in its term are within those of the course. -/
theorem Meets.done {tasks : List Task} {task : Task} {scopes scopes' last : Scopes}
    {terms : List Term}
    (meets : Meets schema tasks scopes task scopes')
    (stacked : scopes.Stacked)
    (ran : (runInTurn schema tasks).run scopes = .ok (terms, last)) :
    ∃ t next, (task.run schema).run scopes' = .ok (t, next) ∧
      (∀ inner ∈ t.nested, ∃ outer ∈ terms.flatMap Term.nested, outer.Within inner) ∧
        ∀ height < scopes.length, ∀ scope, next.level? height = some scope →
          ∃ later, last.level? height = some later ∧ scope.Grows later := by
  induction meets generalizing terms last with
  | here =>
    obtain ⟨t, next, others, first, ranRest, rfl⟩ := runInTurn_cons_eq_ok.mp ran
    have grow := (runs_of_runInTurn (Task.runs stacked first).stacked_last ranRest).grow
    refine ⟨t, next, first, fun inner member => ⟨inner, ?_, .refl⟩, fun _ _ _ => grow.level?⟩
    exact List.mem_append_left _ member
  | later first _ inductionHypothesis =>
    obtain ⟨t, next, others, first', ranRest, rfl⟩ := runInTurn_cons_eq_ok.mp ran
    obtain ⟨-, rfl⟩ := Prod.mk.inj (Except.ok.inj (first.symm.trans first'))
    have runsFirst := Task.runs stacked first
    obtain ⟨t', next', done, nested, grows⟩ := inductionHypothesis runsFirst.stacked_last ranRest
    refine ⟨t', next', done, fun inner member => ?_, runsFirst.grow.length_eq ▸ grows⟩
    obtain ⟨outer, isOuter, within⟩ := nested inner member
    exact ⟨outer, List.mem_append_right _ isOuter, within⟩
  | part _ inductionHypothesis =>
    obtain ⟨t, next, others, first, ranRest, rfl⟩ := runInTurn_cons_eq_ok.mp ran
    obtain ⟨parts, below, ranTasks, inFirst, growBelow⟩ := ran_tasks_of_toTerm stacked first
    have growRest := (runs_of_runInTurn (Task.runs stacked first).stacked_last ranRest).grow
    obtain ⟨t', next', done, nested, grows⟩ := inductionHypothesis stacked ranTasks
    refine ⟨t', next', done, fun inner member => ?_, fun height inside scope found => ?_⟩
    · obtain ⟨outer, isOuter, within⟩ := nested inner member
      obtain ⟨first, isFirst, withinFirst⟩ := inFirst outer isOuter
      exact ⟨first, List.mem_append_left _ isFirst, withinFirst.trans within⟩
    · obtain ⟨between, foundBetween, growsBetween⟩ := grows height inside scope found
      obtain ⟨later, foundLater, growsLater⟩ := (growBelow.trans growRest).level? foundBetween
      exact ⟨later, foundLater, growsBetween.trans growsLater⟩
  | level opens _ inductionHypothesis =>
    obtain ⟨t, next, others, first, ranRest, rfl⟩ := runInTurn_cons_eq_ok.mp ran
    obtain ⟨run⟩ := exists_levelRun opens.opensLevel first
    obtain ⟨rfl, rfl, rfl⟩ := opens.unique run.opens
    obtain ⟨stackedInside, growBelow⟩ := opens.stacked stacked
    have growNext : Scopes.Grow _ _ :=
      (List.forall₂_cons.mp (runs_of_runInTurn stackedInside run.inside).grow).2
    have growRest := (runs_of_runInTurn (Task.runs stacked first).stacked_last ranRest).grow
    obtain ⟨t', next', done, nested, grows⟩ := inductionHypothesis stackedInside run.inside
    refine ⟨t', next', done, fun inner member => ?_, fun height inside scope found => ?_⟩
    · obtain ⟨outer, isOuter, within⟩ := nested inner member
      refine ⟨run.select, ?_, .head ?_ within⟩
      · exact List.mem_append_left _ (by simp [run.nested_eq])
      · rw [run.nested_in_eq]
        exact List.mem_append_right _ isOuter
    · have insideBelow : height < run.below.length := growBelow.length_eq ▸ inside
      obtain ⟨between, foundBetween, growsBetween⟩ :=
        grows height (Nat.lt_succ_of_lt insideBelow) scope found
      rw [Scopes.level?_cons (growNext.length_eq ▸ insideBelow)] at foundBetween
      obtain ⟨later, foundLater, growsLater⟩ := growRest.level? foundBetween
      exact ⟨later, foundLater, growsBetween.trans growsLater⟩

end Sql

open Sql

/-! ## The course of a query -/

namespace Query

variable {schema : Schema} {query : Query} {task : Task} {scopes : Scopes}

/-- The translation of a query comes to a task in some scopes. -/
def Meets (schema : Schema) (query : Query) (task : Task) (scopes : Scopes) : Prop :=
  Sql.Meets schema [.term .value (.query query)] [] task scopes

/-- The scopes at some point of the translation of a query. -/
def Reaches (schema : Schema) (query : Query) (scopes : Scopes) : Prop :=
  ∃ task before, query.Meets schema task before ∧ task.Passes schema before scopes

theorem Reaches.stacked (reaches : query.Reaches schema scopes) : scopes.Stacked := by
  obtain ⟨task, before, meets, passes⟩ := reaches
  exact passes.stacked (Sql.Meets.stacked meets Scopes.stacked_nil)

theorem run_of_toSelect {statement : Select} (ran : schema.toSelect query = .ok statement) :
    ∃ last, (runInTurn schema [.term .value (.query query)]).run []
      = .ok ([.subselect statement], last) := by
  obtain ⟨⟨select, last⟩, selected, finished⟩ := bind_eq_ok.mp ran
  obtain rfl := Except.ok.inj finished
  refine ⟨last, runInTurn_single ?_⟩
  rw [Expr.toTerm, run_bind_eq_ok]
  exact ⟨select, last, selected, run_pure_eq_ok.mpr ⟨rfl, rfl⟩⟩

/-- When a query is translated, all tasks that its translation comes to are done, and their selects
are within the statement. -/
theorem Meets.done {statement : Select}
    (meets : query.Meets schema task scopes)
    (ran : schema.toSelect query = .ok statement) :
    ∃ t next, (task.run schema).run scopes = .ok (t, next) ∧
      ∀ inner ∈ t.nested, statement.Within inner := by
  obtain ⟨last, ranAll⟩ := run_of_toSelect ran
  obtain ⟨t, next, done, nested, -⟩ := Sql.Meets.done meets Scopes.stacked_nil ranAll
  refine ⟨t, next, done, fun inner member => ?_⟩
  obtain ⟨outer, isOuter, within⟩ := nested inner member
  obtain rfl : outer = statement := by simpa [Term.nested] using isOuter
  exact within

end Query

namespace Sql

/-! ## The levels of a query -/

/-- A level that is opened in the translation of a query: the node that is met and opens it, the
scopes at that time and those below the level, the scope of the level and the tasks in it. -/
structure Level (schema : Schema) (query : Query) where
  role : Role
  node : Expr
  before : Scopes
  below : Scopes
  scope : Scope
  body : List Task
  met : query.Meets schema (.term role node) before
  opens : Opens schema node before below scope body

namespace Level

variable {schema : Schema} {query : Query} (level : Level schema query)

/-- Within a level the translation comes to a task in some scopes. -/
def Meets (task : Task) (scopes : Scopes) : Prop :=
  Sql.Meets schema level.body (level.scope :: level.below) task scopes

/-- The level becomes this select. -/
def Gives (select : Select) : Prop :=
  ∃ t next, (level.node.toTerm schema level.role).run level.before = .ok (t, next) ∧
    t.nested = [select]

/-- The scope of the level is this one in the end. -/
def Ends (last : Scope) : Prop :=
  ∃ clauses later, (runInTurn schema level.body).run (level.scope :: level.below)
    = .ok (clauses, last :: later)

/-- Each select within the statement of a query is that of a level. -/
theorem exists_gives {statement select : Select}
    (ran : schema.toSelect query = .ok statement)
    (within : statement.Within select) : ∃ level : Level schema query, level.Gives select := by
  obtain ⟨last, ranAll⟩ := Query.run_of_toSelect ran
  obtain ⟨role, e, before, t, next, meets, ranNode, isSelect, nests⟩ :=
    exists_met_of_within Scopes.stacked_nil ranAll (by simp [Term.nested]) within
  obtain ⟨run⟩ := exists_levelRun nests ranNode
  exact ⟨⟨role, e, before, run.below, run.scope, run.body, meets, run.opens⟩, t, next, ranNode,
    isSelect⟩

/-- In the select of a level each class of its from list is restricted. -/
theorem restricts_of_gives {select : Select} (gives : level.Gives select) :
    Restricts schema level.scope.entries select.conditions := by
  obtain ⟨t, next, ran, isSelect⟩ := gives
  obtain ⟨run⟩ := exists_levelRun level.opens.opensLevel ran
  obtain ⟨-, sameScope, -⟩ := level.opens.unique run.opens
  obtain rfl := List.singleton_inj.mp (run.nested_eq.symm.trans isSelect)
  exact sameScope ▸ run.restricts

theorem stacked_inside : Scopes.Stacked (level.scope :: level.below) :=
  (level.opens.stacked (Sql.Meets.stacked level.met Scopes.stacked_nil)).1

end Level

end Sql

end ObjectQuery

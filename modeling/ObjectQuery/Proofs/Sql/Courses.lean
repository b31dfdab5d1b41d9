import ObjectQuery.Proofs.Expr.Parts
import ObjectQuery.Proofs.Sql.Tasks

/-!
Contract: courses of tasks.

A course is followed through expressions and levels, so that what holds of the scopes or of the
terms is shown once for a look-up, once for an expression and once for a level.

Owns:
- `Runs`, a course as a relation by which such proofs go;
- that the scopes stay stacked and only grow.

Does not own: which joins there are.
-/

namespace ObjectQuery.Sql

variable {schema : Schema}

/-- Tasks are done one after another in stacked scopes, which grow on the way. A look-up is a step
of its own; an expression without a level comes to its tasks; an expression with a level comes to
its tasks and then to the body of the level, in the scope that was opened. -/
inductive Runs (schema : Schema) : List Task → Scopes → List Term → Scopes → Prop
  | nil {scopes : Scopes} (stacked : scopes.Stacked) : Runs schema [] scopes [] scopes
  | row {names : List String} {rest : List Task} {scopes next last : Scopes} {row : Row}
      {terms : List Term}
      (stacked : scopes.Stacked)
      (resolved : (resolveRow schema names).run scopes = .ok (row, next))
      (grow : scopes.Grow next)
      (later : Runs schema rest next terms last) :
      Runs schema (.row names :: rest) scopes (.rowOf row.name :: terms) last
  | flat {role : Role} {e : Expr} {rest : List Task} {scopes next last : Scopes} {t : Term}
      {terms : List Term}
      (stacked : scopes.Stacked)
      (ran : (e.toTerm schema role).run scopes = .ok (t, next))
      (noLevel : e.opensLevel = false)
      (run : FlatRun schema e scopes t next)
      (grow : scopes.Grow next)
      (inside : Runs schema e.tasks scopes run.parts next)
      (later : Runs schema rest next terms last) :
      Runs schema (.term role e :: rest) scopes (t :: terms) last
  | level {role : Role} {e : Expr} {rest : List Task} {scopes next last : Scopes} {t : Term}
      {terms : List Term}
      (stacked : scopes.Stacked)
      (ran : (e.toTerm schema role).run scopes = .ok (t, next))
      (run : LevelRun schema e scopes t next)
      (growBelow : scopes.Grow run.below)
      (growLevel : run.scope.Grows run.last)
      (growNext : run.below.Grow next)
      (before : Runs schema e.tasks scopes run.parts run.below)
      (inside : Runs schema run.body (run.scope :: run.below) run.clauses (run.last :: next))
      (later : Runs schema rest next terms last) :
      Runs schema (.term role e :: rest) scopes (t :: terms) last

section

variable {tasks : List Task} {scopes last : Scopes} {terms : List Term}

theorem Runs.stacked (runs : Runs schema tasks scopes terms last) : scopes.Stacked := by
  cases runs <;> assumption

theorem Runs.stacked_last (runs : Runs schema tasks scopes terms last) : last.Stacked := by
  induction runs <;> assumption

theorem Runs.grow (runs : Runs schema tasks scopes terms last) : scopes.Grow last := by
  induction runs with
  | nil => exact .refl _
  | row _ _ grow _ inductionLater => exact grow.trans inductionLater
  | flat _ _ _ _ grow _ _ _ inductionLater => exact grow.trans inductionLater
  | level _ _ _ growBelow _ growNext _ _ _ _ _ inductionLater =>
    exact growBelow.trans (growNext.trans inductionLater)

end

/-! ## Tasks are about parts -/

/-- What is done for an expression in the scopes at hand is done for parts of it. -/
theorem mem_parts_of_mem_tasks {role : Role} {part e : Expr} (member : .term role part ∈ e.tasks) :
    part ∈ e.parts := by
  cases e with
  | literal _ | raw _ | parameter _ _ | boolean _ | query _ | nonempty _ => cases member
  | path _ | asterisk _ | classTag _ | count _ _ => simp [Expr.tasks] at member
  | binary _ left right | and left right | or left right =>
    rcases List.mem_cons.mp member with isLeft | isRight
    · exact (Task.term.inj isLeft).2 ▸ List.mem_cons_self
    · obtain ⟨-, rfl⟩ := Task.term.inj (List.mem_singleton.mp isRight)
      exact List.mem_cons_of_mem _ List.mem_cons_self
  | negate operand | not operand | nullTest operand _ =>
    exact (Task.term.inj (List.mem_singleton.mp member)).2 ▸ List.mem_cons_self
  | call _ arguments =>
    obtain ⟨argument, isArgument, same⟩ := List.mem_map.mp member
    rw [Expr.parts_call, ← (Task.term.inj same).2]
    exact List.mem_of_mem_filter isArgument
  | relational op left right =>
    have isSide : part = left ∨ part = right := by
      cases nulls : nullComparison? op left right <;>
        simp only [Expr.tasks, nulls, List.mem_cons, Task.term.injEq, List.not_mem_nil,
          or_false] at member
      · exact member.imp And.right And.right
      · rw [member.2]
        split <;> simp
    rcases isSide with rfl | rfl
    · exact List.mem_cons_self
    · exact List.mem_cons_of_mem _ List.mem_cons_self
  | oneOf operand candidates =>
    rw [Expr.parts_oneOf]
    cases candidates with
    | nil => cases member
    | cons first rest =>
      rcases List.mem_cons.mp member with same | isMapped
      · exact (Task.term.inj same).2 ▸ List.mem_cons_self
      · obtain ⟨candidate, isCandidate, same⟩ := List.mem_map.mp isMapped
        exact (Task.term.inj same).2 ▸ List.mem_cons_of_mem _ isCandidate
  | contains owner collection element =>
    cases kind : element.isBoolean <;> simp [Expr.tasks, kind] at member
    exact Expr.parts_contains ▸ List.mem_singleton.mpr member.2

/-- What is done in the scope of a query are its clauses. -/
theorem exists_mem_tasks_iff {part : Expr} {q : Query} :
    (∃ role, .term role part ∈ q.tasks) ↔ part ∈ q.clauses := by
  simp [Query.tasks, Query.clauses, exists_or]

/-- What is done in a level is done for parts of the expression that opens it. -/
theorem mem_parts_of_mem_body {role : Role} {part e : Expr} {scopes below : Scopes} {scope : Scope}
    {body : List Task}
    (opens : Opens schema e scopes below scope body)
    (member : .term role part ∈ body) : part ∈ e.parts := by
  cases opens with
  | query | nonempty => exact exists_mem_tasks_iff.mp ⟨role, member⟩
  | count | value => cases member
  | condition =>
    obtain ⟨-, rfl⟩ := Task.term.inj (List.mem_singleton.mp member)
    exact Expr.parts_contains ▸ List.mem_cons_self

/-! ## Levels -/

section

variable {e : Expr} {scopes below : Scopes} {scope : Scope} {body : List Task}

theorem Opens.opensLevel (opens : Opens schema e scopes below scope body) :
    e.opensLevel = true := by
  cases opens <;> rfl

/-- The level is opened over the scopes that the tasks of the expression leave. -/
theorem Opens.ran_tasks (opens : Opens schema e scopes below scope body) :
    ∃ parts, (runInTurn schema e.tasks).run scopes = .ok (parts, below) := by
  cases opens with
  | query | nonempty => exact ⟨[], runInTurn_nil_eq_ok.mpr ⟨rfl, rfl⟩⟩
  | count resolved _ =>
    obtain ⟨row, resolvedRow, -, -⟩ := row_of_resolveCollection resolved
    exact ⟨_, runInTurn_row resolvedRow⟩
  | condition kind resolved _ =>
    obtain ⟨row, resolvedRow, -, -⟩ := row_of_resolveCollection resolved
    exact ⟨_, by rw [Expr.tasks, kind]; exact runInTurn_row resolvedRow⟩
  | value kind resolved translated _ =>
    obtain ⟨row, resolvedRow, -, -⟩ := row_of_resolveCollection resolved
    have ran := runInTurn_append (runInTurn_row resolvedRow) (runInTurn_single translated)
    exact ⟨_, by rw [Expr.tasks, kind]; exact ran⟩

/-- A level is opened with some tables and no joins, as deep as there are scopes below it. -/
theorem Opens.opened (opens : Opens schema e scopes below scope body) :
    scope.Opened below.length ∧ 0 < scope.nextNumber := by
  cases opens with
  | query nonempty added | nonempty nonempty added =>
    obtain ⟨opened, -, -, counted⟩ := opened_of_addSources (Scope.opened_empty _) added
    exact ⟨opened, counted ▸ Nat.add_pos_right _ (List.length_pos_iff.mpr nonempty)⟩
  | count _ opened | condition _ _ opened | value _ _ _ opened =>
    obtain ⟨valid, -⟩ := valid_of_membership opened
    exact ⟨valid.opened, valid.some_entry⟩

/-- An expression opens one level in given scopes. -/
theorem Opens.unique
    (opens : Opens schema e scopes below scope body)
    {below' : Scopes}
    {scope' : Scope}
    {body' : List Task}
    (opens' : Opens schema e scopes below' scope' body') :
    below = below' ∧ scope = scope' ∧ body = body' := by
  cases opens with
  | query _ added =>
    cases opens' with
    | query _ added' =>
      obtain ⟨rfl, -⟩ := Prod.mk.inj (Except.ok.inj (added.symm.trans added'))
      exact ⟨rfl, rfl, rfl⟩
  | nonempty _ added =>
    cases opens' with
    | nonempty _ added' =>
      obtain ⟨rfl, -⟩ := Prod.mk.inj (Except.ok.inj (added.symm.trans added'))
      exact ⟨rfl, rfl, rfl⟩
  | count resolved opened =>
    cases opens' with
    | count resolved' opened' =>
      obtain ⟨sameFound, rfl⟩ := Prod.mk.inj (Except.ok.inj (resolved.symm.trans resolved'))
      obtain ⟨rfl, rfl⟩ := Prod.mk.inj sameFound
      obtain rfl := Except.ok.inj (opened.symm.trans opened')
      exact ⟨rfl, rfl, rfl⟩
  | condition kind resolved opened =>
    cases opens' with
    | condition _ resolved' opened' =>
      obtain ⟨sameFound, rfl⟩ := Prod.mk.inj (Except.ok.inj (resolved.symm.trans resolved'))
      obtain ⟨rfl, rfl⟩ := Prod.mk.inj sameFound
      obtain rfl := Except.ok.inj (opened.symm.trans opened')
      exact ⟨rfl, rfl, rfl⟩
    | value kind' => exact absurd (kind.symm.trans kind') (by decide)
  | value kind resolved translated opened =>
    cases opens' with
    | condition kind' => exact absurd (kind.symm.trans kind') (by decide)
    | value _ resolved' translated' opened' =>
      obtain ⟨sameFound, rfl⟩ := Prod.mk.inj (Except.ok.inj (resolved.symm.trans resolved'))
      obtain ⟨rfl, rfl⟩ := Prod.mk.inj sameFound
      obtain ⟨-, rfl⟩ := Prod.mk.inj (Except.ok.inj (translated.symm.trans translated'))
      obtain rfl := Except.ok.inj (opened.symm.trans opened')
      exact ⟨rfl, rfl, rfl⟩

end

/-! ## Following a translation -/

theorem Runs.cons {task : Task} {rest : List Task} {scopes next last : Scopes} {t : Term}
    {terms : List Term}
    (first : Runs schema [task] scopes [t] next)
    (later : Runs schema rest next terms last) :
    Runs schema (task :: rest) scopes (t :: terms) last := by
  cases first with
  | row stacked resolved grow done =>
    cases done
    exact .row stacked resolved grow later
  | flat stacked ran noLevel run grow inside done =>
    cases done
    exact .flat stacked ran noLevel run grow inside later
  | level stacked ran run growBelow growLevel growNext before inside done =>
    cases done
    exact .level stacked ran run growBelow growLevel growNext before inside later

/-- A course of tasks runs when each expression among them does. -/
theorem Runs.of_each {tasks : List Task} {scopes last : Scopes} {terms : List Term}
    (stacked : scopes.Stacked)
    (each : ∀ role e, .term role e ∈ tasks → ∀ {scopes t next}, scopes.Stacked →
      (e.toTerm schema role).run scopes = .ok (t, next) →
        Runs schema [.term role e] scopes [t] next)
    (ran : (runInTurn schema tasks).run scopes = .ok (terms, last)) :
    Runs schema tasks scopes terms last := by
  induction tasks generalizing scopes terms with
  | nil =>
    obtain ⟨rfl, rfl⟩ := runInTurn_nil_eq_ok.mp ran
    exact .nil stacked
  | cons task rest inductionHypothesis =>
    obtain ⟨t, next, others, first, later, rfl⟩ := runInTurn_cons_eq_ok.mp ran
    have runsRest (stackedNext : next.Stacked) := inductionHypothesis stackedNext
      (fun role e member => each role e (List.mem_cons_of_mem _ member)) later
    cases task with
    | row names =>
      obtain ⟨row, resolved, rfl⟩ := run_row_eq_ok.mp first
      obtain ⟨stackedNext, grow⟩ := resolveRow_stacked stacked resolved
      exact .row stacked resolved grow (runsRest stackedNext)
    | term role e =>
      have runsFirst := each role e List.mem_cons_self stacked first
      exact .cons runsFirst (runsRest runsFirst.stacked_last)

/-- The recursion is on the size of the expression, of which its tasks and its body are parts. -/
theorem runs_of_toTerm {role : Role} (e : Expr) {scopes next : Scopes} {t : Term}
    (stacked : scopes.Stacked)
    (ran : (e.toTerm schema role).run scopes = .ok (t, next)) :
    Runs schema [.term role e] scopes [t] next := by
  cases nests : e.opensLevel with
  | false =>
    obtain ⟨run⟩ := exists_flatRun nests ran
    have inside : Runs schema e.tasks scopes run.parts next := by
      refine .of_each stacked (fun role part member => ?_) run.ran
      intro scopes t next stackedPart ranPart
      have := Expr.sizeOf_lt_of_mem_parts (mem_parts_of_mem_tasks member)
      exact runs_of_toTerm part stackedPart ranPart
    exact .flat stacked ran nests run inside.grow inside (.nil inside.stacked_last)
  | true =>
    obtain ⟨run⟩ := exists_levelRun nests ran
    have before : Runs schema e.tasks scopes run.parts run.below := by
      refine .of_each stacked (fun role part member => ?_) run.before
      intro scopes t next stackedPart ranPart
      have := Expr.sizeOf_lt_of_mem_parts (mem_parts_of_mem_tasks member)
      exact runs_of_toTerm part stackedPart ranPart
    obtain ⟨opened, -⟩ := run.opens.opened
    have inside : Runs schema run.body (run.scope :: run.below) run.clauses (run.last :: next) := by
      refine .of_each ⟨.opened opened, opened.depth_eq, before.stacked_last⟩
        (fun role part member => ?_) run.inside
      intro scopes t next stackedPart ranPart
      have := Expr.sizeOf_lt_of_mem_parts (mem_parts_of_mem_body run.opens member)
      exact runs_of_toTerm part stackedPart ranPart
    obtain ⟨growLevel, growNext⟩ := List.forall₂_cons.mp inside.grow
    exact .level stacked ran run before.grow growLevel growNext before inside
      (.nil inside.stacked_last.2.2)
termination_by sizeOf e

theorem runs_of_runInTurn {tasks : List Task} {scopes last : Scopes} {terms : List Term}
    (stacked : scopes.Stacked)
    (ran : (runInTurn schema tasks).run scopes = .ok (terms, last)) :
    Runs schema tasks scopes terms last :=
  .of_each stacked (fun _ e _ => runs_of_toTerm e) ran

theorem runInTurn_task {task : Task} {scopes next : Scopes} {t : Term}
    (ran : (task.run schema).run scopes = .ok (t, next)) :
    (runInTurn schema [task]).run scopes = .ok ([t], next) :=
  runInTurn_cons_eq_ok.mpr ⟨t, next, [], ran, runInTurn_nil_eq_ok.mpr ⟨rfl, rfl⟩, rfl⟩

theorem Task.runs {task : Task} {scopes next : Scopes} {t : Term}
    (stacked : scopes.Stacked)
    (ran : (task.run schema).run scopes = .ok (t, next)) : Runs schema [task] scopes [t] next :=
  runs_of_runInTurn stacked (runInTurn_task ran)

/-- A level is opened on stacked scopes over stacked scopes. -/
theorem Opens.stacked {e : Expr} {scopes below : Scopes} {scope : Scope} {body : List Task}
    (opens : Opens schema e scopes below scope body)
    (stacked : scopes.Stacked) : Scopes.Stacked (scope :: below) ∧ scopes.Grow below := by
  obtain ⟨_, ranTasks⟩ := opens.ran_tasks
  have runs := runs_of_runInTurn stacked ranTasks
  obtain ⟨opened, -⟩ := opens.opened
  exact ⟨⟨.opened opened, opened.depth_eq, runs.stacked_last⟩, runs.grow⟩

end ObjectQuery.Sql

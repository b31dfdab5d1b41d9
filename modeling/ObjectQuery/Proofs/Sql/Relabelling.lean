import ObjectQuery.Proofs.Sql.Mirroring
import ObjectQuery.Proofs.Sql.Shadowing

/-!
Contract: a statement does not depend on the labels of the from items.

A label is changed at its from item and in front of the chains that start there. As long as neither
the old nor the new one means anything to the schema, and the new one is not taken, each chain starts
at the same table as before, so that both translations join the same tables in the same order.

Owns: that the statement of a query is that of the query with other labels.
-/

namespace ObjectQuery

namespace Sql

variable {schema : Schema} {relabelling : Relabelling schema} {scopes : Scopes}

/-! ## Lists of expressions -/

/-- The translation of an expression does the same with other labels. -/
def Relabels (relabelling : Relabelling schema) (e : Expr) : Prop :=
  ∀ (role : Role) (scopes : Scopes), scopes.Uses relabelling →
    Mirrored relabelling (e.toTerm schema role)
      ((e.relabel relabelling.change).toTerm schema role) scopes

section

variable (uses : scopes.Uses relabelling)

include uses

theorem mirrored_toTerms {es : List Expr} (each : ∀ e ∈ es, Relabels relabelling e) :
    Mirrored relabelling (Expr.toTerms schema es)
      (Expr.toTerms schema (Expr.relabelEach relabelling.change es)) scopes := by
  induction es generalizing scopes with
  | nil => exact .pure uses _
  | cons e rest inductionHypothesis =>
    obtain ⟨ofFirst, ofRest⟩ := List.forall_mem_cons.mp each
    refine (ofFirst .value scopes uses).bind fun t _ uses => ?_
    exact (inductionHypothesis uses ofRest).bind fun ts _ uses => .pure uses _

theorem mirrored_toArguments {es : List Expr} (each : ∀ e ∈ es, Relabels relabelling e) :
    Mirrored relabelling (Expr.toArguments schema es)
      (Expr.toArguments schema (Expr.relabelEach relabelling.change es)) scopes := by
  induction es generalizing scopes with
  | nil => exact .pure uses _
  | cons e rest inductionHypothesis =>
    obtain ⟨ofFirst, ofRest⟩ := List.forall_mem_cons.mp each
    have remaining (t : Term) {scopes : Scopes} (uses : scopes.Uses relabelling) :
        Mirrored relabelling
          (do pure (t :: (← Expr.toArguments schema rest)))
          (do pure (t :: (← Expr.toArguments schema (Expr.relabelEach relabelling.change rest))))
          scopes :=
      (inductionHypothesis uses ofRest).bind fun ts _ uses => .pure uses (t :: ts)
    simp only [Expr.relabelEach, Expr.toArguments, Expr.isBareAsterisk_relabel]
    cases e.isBareAsterisk with
    | true => exact remaining .allColumns uses
    | false => exact (ofFirst .value scopes uses).bind fun t _ uses => remaining t uses

theorem mirrored_toOption {e : Option Expr} (each : ∀ part ∈ e.toList, Relabels relabelling part) :
    Mirrored relabelling (Expr.toOption schema e)
      (Expr.toOption schema (Expr.relabelOption relabelling.change e)) scopes := by
  cases e with
  | none => exact .pure uses _
  | some e =>
    have ofClause := each e (List.mem_singleton_self e)
    exact (ofClause .condition scopes uses).bind fun t _ uses => .pure uses _

theorem mirrored_toItems {items : List SelectItem}
    (each : ∀ e ∈ items.map (·.expression), Relabels relabelling e) :
    Mirrored relabelling (SelectItem.toItems schema items)
      (SelectItem.toItems schema (SelectItem.relabelEach relabelling.change items)) scopes := by
  induction items generalizing scopes with
  | nil => exact .pure uses _
  | cons item rest inductionHypothesis =>
    obtain ⟨expression, label⟩ := item
    obtain ⟨ofFirst, ofRest⟩ := List.forall_mem_cons.mp each
    refine (ofFirst .value scopes uses).bind fun t _ uses => ?_
    exact (inductionHypothesis uses ofRest).bind fun ts _ uses => .pure uses _

theorem mirrored_toKeys {items : List OrderItem}
    (each : ∀ e ∈ items.map (·.expression), Relabels relabelling e) :
    Mirrored relabelling (OrderItem.toKeys schema items)
      (OrderItem.toKeys schema (OrderItem.relabelEach relabelling.change items)) scopes := by
  induction items generalizing scopes with
  | nil => exact .pure uses _
  | cons item rest inductionHypothesis =>
    obtain ⟨expression, ascending⟩ := item
    obtain ⟨ofFirst, ofRest⟩ := List.forall_mem_cons.mp each
    refine (ofFirst .value scopes uses).bind fun t _ uses => ?_
    exact (inductionHypothesis uses ofRest).bind fun ts _ uses => .pure uses _

end

/-! ## Queries -/

theorem mirrored_toSelect {q : Query}
    (uses : scopes.Uses relabelling)
    (labels : ∀ item ∈ q.sources, ∀ label ∈ item.label, label ∈ relabelling.used)
    (each : ∀ e ∈ q.clauses, Relabels relabelling e) :
    Mirrored relabelling (q.toSelect schema) ((q.relabel relabelling.change).toSelect schema)
      scopes := by
  obtain ⟨distinct, select, sources, condition, groupBy, having, orderBy⟩ := q
  simp only [Query.clauses, List.forall_mem_append] at each
  obtain ⟨⟨⟨⟨ofItems, ofFilter⟩, ofGroups⟩, ofHaving⟩, ofKeys⟩ := each
  simp only [Query.relabel, Query.toSelect, List.isEmpty_map]
  cases sources.isEmpty with
  | true => exact .throw _ _
  | false =>
    apply Mirrored.get_bind
    rw [Scopes.relabel, List.length_map]
    refine .lift_bind (matched_addSources (Scope.uses_empty _) labels) ?_
    rintro ⟨scope, restrictions⟩ _ ⟨rfl, ofScope⟩
    refine .within_bind rfl ?_ ?_
    · have uses : Scopes.Uses relabelling (scope :: scopes) := List.forall_mem_cons.mpr ⟨ofScope, uses⟩
      refine (mirrored_toItems uses ofItems).bind fun items _ uses => ?_
      refine (mirrored_toOption uses ofFilter).bind fun filter _ uses => ?_
      refine (mirrored_toTerms uses ofGroups).bind fun groups _ uses => ?_
      refine (mirrored_toOption uses ofHaving).bind fun kept _ uses => ?_
      exact (mirrored_toKeys uses ofKeys).bind fun keys _ uses => .pure uses _
    · rintro inner ⟨items, filter, groups, kept, keys⟩ later uses
      rw [Scope.sources_relabel]
      exact .pure uses _

/-! ## Expressions -/

theorem mirrored_pair {left right : Expr} {role : Role} (combine : Term → Term → Term)
    (uses : scopes.Uses relabelling)
    (ofLeft : Relabels relabelling left)
    (ofRight : Relabels relabelling right) :
    Mirrored relabelling
      (do
        let l ← left.toTerm schema role
        let r ← right.toTerm schema role
        pure (combine l r))
      (do
        let l ← (left.relabel relabelling.change).toTerm schema role
        let r ← (right.relabel relabelling.change).toTerm schema role
        pure (combine l r)) scopes := by
  refine (ofLeft role scopes uses).bind fun l _ uses => ?_
  exact (ofRight role _ uses).bind fun r _ uses => .pure uses _

theorem nullComparison?_relabel (op : RelationalOp) (left right : Expr)
    (change : String → String) :
    nullComparison? op (left.relabel change) (right.relabel change) =
      nullComparison? op left right := by
  simp [nullComparison?]

theorem relabels_relational {left right : Expr} (op : RelationalOp)
    (ofLeft : Relabels relabelling left)
    (ofRight : Relabels relabelling right) :
    Relabels relabelling (.relational op left right) := by
  intro role scopes uses
  simp only [Expr.relabel, Expr.toTerm, nullComparison?_relabel, Expr.isNullLiteral_relabel]
  cases nullComparison? op left right with
  | none => exact mirrored_pair _ uses ofLeft ofRight
  | some negated =>
    cases right.isNullLiteral with
    | true => exact (ofLeft .plain scopes uses).bind fun t _ uses => .pure uses _
    | false => exact (ofRight .plain scopes uses).bind fun t _ uses => .pure uses _

theorem relabels_oneOf {operand : Expr} {candidates : List Expr}
    (ofOperand : Relabels relabelling operand)
    (each : ∀ e ∈ candidates, Relabels relabelling e) :
    Relabels relabelling (.oneOf operand candidates) := by
  intro role scopes uses
  cases candidates with
  | nil => exact .pure uses _
  | cons first rest =>
    refine (ofOperand .value scopes uses).bind fun t _ uses => ?_
    exact (mirrored_toTerms uses each).bind fun ts _ uses => .pure uses _

theorem relabels_count {owner : List String} (collection : String)
    (inUse : ∀ first ∈ owner.head?, first ∈ relabelling.used) :
    Relabels relabelling (.count owner collection) := by
  intro role scopes uses
  refine (mirrored_resolveCollection collection uses inUse).bind fun ⟨found, key⟩ later uses => ?_
  apply Mirrored.get_bind
  rw [Scopes.relabel, List.length_map]
  exact .lift_bind_same fun setup _ => .lift_bind_same fun kept _ => .pure uses _

theorem relabels_contains {owner : List String} {element : Expr} (collection : String)
    (inUse : ∀ first ∈ owner.head?, first ∈ relabelling.used)
    (ofElement : Relabels relabelling element) :
    Relabels relabelling (.contains owner collection element) := by
  intro role scopes uses
  simp only [Expr.relabel, Expr.toTerm, Expr.isBoolean_relabel]
  refine (mirrored_resolveCollection collection uses inUse).bind ?_
  rintro ⟨found, key⟩ later uses
  cases element.isBoolean with
  | true =>
    apply Mirrored.get_bind
    rw [Scopes.relabel, List.length_map]
    refine .lift_bind_same fun setup opened => .lift_bind_same fun kept _ => ?_
    obtain ⟨same, ofScope⟩ := @unlabelled_of_membership _ relabelling _ _ _ _ _ opened
    refine .within_bind same ?_ fun inner test _ uses => ?_
    · exact ofElement .plain _ (List.forall_mem_cons.mpr ⟨ofScope, uses⟩)
    · simp only [collectionSelect, Scope.sources_relabel]
      exact .pure uses _
  | false =>
    refine (ofElement .value later uses).bind fun wanted later uses => .get_bind ?_
    rw [Scopes.relabel, List.length_map]
    exact .lift_bind_same fun setup _ => .lift_bind_same fun kept _ => .pure uses _

/-- Wherever the labels at hand are in use, an expression whose handles are in use is translated as
the one with other labels. -/
theorem relabels (e : Expr)
    (inUse : e.Everywhere fun part => ∀ name ∈ part.handles, name ∈ relabelling.used) :
    Relabels relabelling e := by
  induction e using Expr.parts_induction with
  | step e each =>
    obtain ⟨handles, ofParts⟩ := Expr.everywhere_iff.mp inUse
    replace each : ∀ part ∈ e.parts, Relabels relabelling part :=
      fun part member => each part member (ofParts part member)
    have ofChain (owner : List String) (same : e.handles = owner.head?.toList) :
        ∀ first ∈ owner.head?, first ∈ relabelling.used :=
      fun first isFirst => handles first (same ▸ Option.mem_toList.mpr isFirst)
    have ofLabels (q : Query) (same : e.handles = q.sources.filterMap (·.label)) :
        ∀ item ∈ q.sources, ∀ label ∈ item.label, label ∈ relabelling.used :=
      fun item isItem label isLabel =>
        handles label (same ▸ List.mem_filterMap.mpr ⟨item, isItem, isLabel⟩)
    intro role scopes uses
    cases e with
    | literal _ | parameter _ _ | raw _ | boolean _ => exact .pure uses _
    | path p =>
      exact (mirrored_resolveColumn uses (ofChain p.owner rfl)).bind fun _ _ uses => .pure uses _
    | asterisk owner =>
      exact (mirrored_resolveRow uses (ofChain owner rfl)).bind fun _ _ uses => .pure uses _
    | classTag owner =>
      exact (mirrored_resolveRow uses (ofChain owner rfl)).bind fun _ _ uses => .pure uses _
    | binary _ left right | and left right | or left right =>
      exact mirrored_pair _ uses (each left List.mem_cons_self)
        (each right (List.mem_cons_of_mem _ List.mem_cons_self))
    | negate operand | not operand | nullTest operand _ =>
      exact (each operand List.mem_cons_self _ scopes uses).bind fun _ _ uses => .pure uses _
    | relational op left right =>
      exact relabels_relational op (each left List.mem_cons_self)
        (each right (List.mem_cons_of_mem _ List.mem_cons_self)) role scopes uses
    | call function arguments =>
      rw [Expr.parts_call] at each
      exact (mirrored_toArguments uses each).bind fun _ _ uses => .pure uses _
    | oneOf operand candidates =>
      rw [Expr.parts_oneOf] at each
      obtain ⟨ofOperand, ofCandidates⟩ := List.forall_mem_cons.mp each
      exact relabels_oneOf ofOperand ofCandidates role scopes uses
    | query q | nonempty q =>
      exact (mirrored_toSelect uses (ofLabels q rfl) each).bind fun _ _ uses => .pure uses _
    | count owner collection =>
      exact relabels_count collection (ofChain owner rfl) role scopes uses
    | contains owner collection element =>
      have ofElement := each element (Expr.parts_contains ▸ List.mem_cons_self)
      exact relabels_contains collection (ofChain owner rfl) ofElement role scopes uses

end Sql

namespace Schema

open Sql

variable (schema : Schema)

/-- A query is translated as the one with other labels, if the names that may be labels are in
use. -/
theorem matched_toSelect {q : Query} (relabelling : Relabelling schema)
    (inUse : (Expr.query q).Everywhere fun part => ∀ name ∈ part.handles, name ∈ relabelling.used) :
    Matched Eq (schema.toSelect q) (schema.toSelect (q.relabel relabelling.change)) := by
  obtain ⟨handles, ofParts⟩ := Expr.everywhere_iff.mp inUse
  have mirrored := @mirrored_toSelect schema relabelling [] q (List.forall_mem_nil _)
    (fun item isItem label isLabel =>
      handles label (List.mem_filterMap.mpr ⟨item, isItem, isLabel⟩))
    fun e member => relabels e (ofParts e member)
  apply Matched.bind mirrored
  rintro ⟨select, later⟩ _ ⟨rfl, -⟩
  exact .results rfl

/-- A label may be any name that is neither a class, nor a field, nor taken by another label or
chain of the query: with another one in its place, at its from item and in front of the chains, the
query has a statement if it had one, and then the same text. -/
theorem toSql_relabel (config : Config) (q : Query) (old new : String)
    (strange : old ∉ schema.spokenNames)
    (fresh : new ∉ schema.spokenNames)
    (unused : (Expr.query q).Everywhere fun part => new ∉ part.handles) :
    ∀ sql, schema.toSql config q = .ok sql ↔
      schema.toSql config (q.relabel (replaceName old new)) = .ok sql := by
  intro sql
  have inUse : (Expr.query q).Everywhere fun part =>
      ∀ name ∈ part.handles, name ∈ (Relabelling.replacing strange fresh).used :=
    fun part within name isHandle =>
      Set.mem_compl_singleton_iff.mpr fun same => unused part within (same ▸ isHandle)
  have matched := schema.matched_toSelect (Relabelling.replacing strange fresh) inUse
  exact (matched.bind fun select _ same => same ▸ .refl _).eq_ok_iff

/-- `select g.Name from Group g where exists (select Id from Contact where PrimaryGroup.Id = g.Id)`,
with a label in the place of `g`. -/
def groupsInUse (label : String) : Query :=
  ⟨false, [⟨.path ⟨[label], "Name"⟩, none⟩], [⟨"Group", some label⟩],
    some (.nonempty ⟨false, [⟨.path ⟨[], "Id"⟩, none⟩], [⟨"Contact", none⟩],
      some (.relational .equal (.path ⟨["PrimaryGroup"], "Id"⟩) (.path ⟨[label], "Id"⟩)), [], none,
      []⟩), [], none, []⟩

/-- The label of a group may be another one, also in the select nested in its own. -/
theorem toSql_groupsInUse :
    ∃ sql, clubSchema.toSql .standard (groupsInUse "g") = .ok sql ∧
      clubSchema.toSql .standard (groupsInUse "h") = .ok sql := by
  have unused : (Expr.query (groupsInUse "g")).Everywhere fun part => "h" ∉ part.handles := by
    have leaf (p : Path) (other : "h" ∉ p.owner.head?.toList) :
        (Expr.path p).Everywhere fun part => "h" ∉ part.handles :=
      Expr.everywhere_of_leaf other rfl
    refine Expr.everywhere_of_pair (by decide) rfl (leaf _ (by decide)) ?_
    refine Expr.everywhere_of_pair (by decide) rfl (leaf _ (by decide)) ?_
    exact Expr.everywhere_of_pair (by decide) rfl (leaf _ (by decide)) (leaf _ (by decide))
  have changed : (groupsInUse "g").relabel (replaceName "g" "h") = groupsInUse "h" := rfl
  obtain ⟨statement, ran⟩ : ∃ statement, clubSchema.toSelect (groupsInUse "g") = .ok statement :=
    exists_eq_ok (by cbv)
  have translated : clubSchema.toSql .standard (groupsInUse "g") = .ok (statement.text .standard) :=
    bind_eq_ok.mpr ⟨statement, ran, rfl⟩
  have same := toSql_relabel clubSchema .standard (groupsInUse "g") "g" "h" (by decide) (by decide)
    unused (statement.text .standard)
  rw [changed] at same
  exact ⟨_, translated, same.mp translated⟩

end Schema

end ObjectQuery

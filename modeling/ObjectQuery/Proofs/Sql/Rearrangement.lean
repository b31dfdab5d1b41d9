import ObjectQuery.Proofs.Expr.Parts
import ObjectQuery.Proofs.Schema.Rearrangement
import ObjectQuery.Sql.Statement

/-!
Contract: a statement does not depend on the order in which the classes of a schema were added.

The translation asks the schema and looks at nothing else of it, so that it is the same for schemas
that give the same answers.

Owns:
- that each part of the translation is the same for such schemas;
- that classes of distinct names make schemas with the same answers and the same statements in
  whatever order they are added.

Does not own: which schemas give the same answers.
-/

namespace ObjectQuery

open Sql

variable {first second : Schema}

namespace Schema.SameAnswers

section

variable (same : first.SameAnswers second)

include same

/-! ## Tables and rows -/

theorem requireTable : Sql.requireTable first = Sql.requireTable second := by
  funext className
  rw [Sql.requireTable, Sql.requireTable, same.table?]

theorem requireKeyColumn : Sql.requireKeyColumn first = Sql.requireKeyColumn second := by
  funext className
  rw [Sql.requireKeyColumn, Sql.requireKeyColumn, same.primaryKey?]

theorem restrictionOf : Sql.restrictionOf first = Sql.restrictionOf second := by
  funext name className
  rw [Sql.restrictionOf, Sql.restrictionOf, same.hasSubclassing, same.selectorField?,
    same.selectorValues]

theorem locateRow : Sql.locateRow first = Sql.locateRow second := by
  funext scopes names
  simp only [Sql.locateRow, same.field?]

theorem joinStep : Sql.joinStep first = Sql.joinStep second := by
  funext level entry owner step
  simp only [Sql.joinStep, same.requireTable, same.requireKeyColumn, same.restrictionOf]

theorem joinAlong (level entry : Nat) :
    Sql.joinAlong first level entry = Sql.joinAlong second level entry := by
  funext owner steps
  induction steps generalizing owner with
  | nil => rfl
  | cons step rest inductionHypothesis =>
    simp only [Sql.joinAlong, same.joinStep, inductionHypothesis]

theorem resolveRow : Sql.resolveRow first = Sql.resolveRow second := by
  funext names
  simp only [Sql.resolveRow, same.locateRow, same.resolveReferences, same.joinAlong]

theorem resolveColumn : Sql.resolveColumn first = Sql.resolveColumn second := by
  funext path
  rw [Sql.resolveColumn, Sql.resolveColumn, same.resolveRow, same.requireField]

theorem resolveCollection : Sql.resolveCollection first = Sql.resolveCollection second := by
  funext owner collection
  rw [Sql.resolveCollection, Sql.resolveCollection, same.resolveRow, same.requireCollection,
    same.requireKeyColumn]

theorem classTagTerm : Sql.classTagTerm first = Sql.classTagTerm second := by
  funext row
  simp only [Sql.classTagTerm, same.hasSubclassing, same.selectorField?, same.find?,
    same.subclasses]

theorem addSources : Sql.addSources first = Sql.addSources second := by
  funext scope sources
  induction sources generalizing scope with
  | nil => rfl
  | cons item rest inductionHypothesis =>
    simp only [Sql.addSources, same.require, same.requireTable, same.restrictionOf,
      inductionHypothesis]

theorem membership : Sql.membership first = Sql.membership second := by
  funext depth collection ownerKey elementsMatter
  simp only [Sql.membership, same.requireTable, same.requireField, same.requireKeyColumn]

theorem memberConditions : Sql.memberConditions first = Sql.memberConditions second := by
  funext member wanted
  simp only [Sql.memberConditions, same.restrictionOf, same.requireKeyColumn]

end

/-! ## Expressions and queries -/

/-- An expression is the same term in every role. -/
def SameTerm (first second : Schema) (e : Expr) : Prop :=
  ∀ role, e.toTerm first role = e.toTerm second role

theorem toTerms {es : List Expr} (each : ∀ e ∈ es, SameTerm first second e) :
    Expr.toTerms first es = Expr.toTerms second es := by
  induction es with
  | nil => rfl
  | cons e rest inductionHypothesis =>
    obtain ⟨ofFirst, ofRest⟩ := List.forall_mem_cons.mp each
    rw [Expr.toTerms, Expr.toTerms, ofFirst, inductionHypothesis ofRest]

theorem toArguments {es : List Expr} (each : ∀ e ∈ es, SameTerm first second e) :
    Expr.toArguments first es = Expr.toArguments second es := by
  induction es with
  | nil => rfl
  | cons e rest inductionHypothesis =>
    obtain ⟨ofFirst, ofRest⟩ := List.forall_mem_cons.mp each
    rw [Expr.toArguments, Expr.toArguments, ofFirst, inductionHypothesis ofRest]

theorem toOption {e : Option Expr} (each : ∀ part ∈ e.toList, SameTerm first second part) :
    Expr.toOption first e = Expr.toOption second e := by
  cases e with
  | none => rfl
  | some e => rw [Expr.toOption, Expr.toOption, each e (List.mem_singleton_self e)]

theorem toItems {items : List SelectItem}
    (each : ∀ e ∈ items.map (·.expression), SameTerm first second e) :
    SelectItem.toItems first items = SelectItem.toItems second items := by
  induction items with
  | nil => rfl
  | cons item rest inductionHypothesis =>
    obtain ⟨expression, label⟩ := item
    obtain ⟨ofFirst, ofRest⟩ := List.forall_mem_cons.mp each
    rw [SelectItem.toItems, SelectItem.toItems, ofFirst, inductionHypothesis ofRest]

theorem toKeys {items : List OrderItem}
    (each : ∀ e ∈ items.map (·.expression), SameTerm first second e) :
    OrderItem.toKeys first items = OrderItem.toKeys second items := by
  induction items with
  | nil => rfl
  | cons item rest inductionHypothesis =>
    obtain ⟨expression, ascending⟩ := item
    obtain ⟨ofFirst, ofRest⟩ := List.forall_mem_cons.mp each
    rw [OrderItem.toKeys, OrderItem.toKeys, ofFirst, inductionHypothesis ofRest]

variable (same : first.SameAnswers second)

include same

theorem toSelect_of_clauses {q : Query} (each : ∀ e ∈ q.clauses, SameTerm first second e) :
    q.toSelect first = q.toSelect second := by
  obtain ⟨distinct, select, sources, condition, groupBy, having, orderBy⟩ := q
  simp only [Query.clauses, List.forall_mem_append] at each
  obtain ⟨⟨⟨⟨ofItems, ofFilter⟩, ofGroups⟩, ofHaving⟩, ofKeys⟩ := each
  rw [Query.toSelect, Query.toSelect, same.addSources, toItems ofItems, toOption ofFilter,
    toTerms ofGroups, toOption ofHaving, toKeys ofKeys]

/-- By induction on parts: a node asks the schema itself, and translates its parts. -/
theorem toTerm (e : Expr) : SameTerm first second e := by
  induction e using Expr.parts_induction with
  | step e inductionHypothesis =>
    intro role
    cases e with
    | literal _ | parameter _ _ | raw _ | boolean _ => rfl
    | path _ => rw [Expr.toTerm, Expr.toTerm, same.resolveColumn]
    | asterisk _ => rw [Expr.toTerm, Expr.toTerm, same.resolveRow]
    | classTag _ => rw [Expr.toTerm, Expr.toTerm, same.resolveRow, same.classTagTerm]
    | count _ _ =>
      rw [Expr.toTerm, Expr.toTerm, same.resolveCollection, same.membership,
        same.memberConditions]
    | binary _ left right | and left right | or left right =>
      have ofLeft := inductionHypothesis left List.mem_cons_self
      have ofRight := inductionHypothesis right (List.mem_cons_of_mem _ List.mem_cons_self)
      rw [Expr.toTerm, Expr.toTerm, ofLeft, ofRight]
    | relational _ left right =>
      have ofLeft := inductionHypothesis left List.mem_cons_self
      have ofRight := inductionHypothesis right (List.mem_cons_of_mem _ List.mem_cons_self)
      simp only [Expr.toTerm, ofLeft _, ofRight _]
    | negate operand | not operand | nullTest operand _ =>
      have ofOperand := inductionHypothesis operand List.mem_cons_self
      rw [Expr.toTerm, Expr.toTerm, ofOperand]
    | call _ arguments =>
      rw [Expr.parts_call] at inductionHypothesis
      rw [Expr.toTerm, Expr.toTerm, toArguments inductionHypothesis]
    | oneOf _ _ =>
      rw [Expr.parts_oneOf] at inductionHypothesis
      obtain ⟨ofOperand, ofCandidates⟩ := List.forall_mem_cons.mp inductionHypothesis
      rw [Expr.toTerm, Expr.toTerm, ofOperand, toTerms ofCandidates]
    | query _ | nonempty _ =>
      rw [Expr.toTerm, Expr.toTerm, same.toSelect_of_clauses inductionHypothesis]
    | contains _ _ element =>
      rw [Expr.parts_contains] at inductionHypothesis
      have ofElement := inductionHypothesis element List.mem_cons_self
      simp only [Expr.toTerm, same.resolveCollection, same.membership, same.memberConditions,
        ofElement _]

/-- Schemas with the same answers translate a query alike, to a statement or to an error. -/
theorem toSelect (q : Query) : first.toSelect q = second.toSelect q := by
  rw [Schema.toSelect, Schema.toSelect, same.toSelect_of_clauses fun e _ => same.toTerm e]

theorem toSql (config : Config) (q : Query) : first.toSql config q = second.toSql config q := by
  rw [Schema.toSql, Schema.toSql, same.toSelect]

end Schema.SameAnswers

namespace Schema

/-- Classes of distinct names are all added, and the order in which they are added is told neither
by what the schema answers nor by the statements of queries and conditions. -/
theorem sameAnswers_and_statements_of_perm {classes others : List ClassDef}
    (distinct : (classes.map (·.name)).Nodup)
    (perm : classes.Perm others) :
    (∀ c ∈ classes, (ofClasses classes).find? c.name = some c) ∧
      (ofClasses classes).SameAnswers (ofClasses others) ∧
      (∀ (config : Config) (q : Query),
        (ofClasses classes).toSql config q = (ofClasses others).toSql config q) ∧
      ∀ (config : Config) (className : String) (condition : Expr),
        (ofClasses classes).toSqlWhere config className condition =
          (ofClasses others).toSqlWhere config className condition := by
  have same := sameAnswers_ofClasses distinct perm
  refine ⟨?_, same, same.toSql, fun config _ _ => same.toSql config _⟩
  intro c member
  apply (keyedByName_ofClasses classes).find?_name
  rw [classes_ofClasses distinct]
  exact List.mem_map_of_mem member

/-- A hierarchy from its root to its leaves and from its leaves to its root. -/
theorem sameAnswers_and_statements_of_reversed_hierarchy :
    ∃ classes : List ClassDef,
      (classes.map (·.name)).Nodup ∧
        classes.Perm classes.reverse ∧
        (ofClasses classes).classes.keys = ["Vehicle", "Car", "Bike"] ∧
        (ofClasses classes.reverse).classes.keys = ["Bike", "Car", "Vehicle"] ∧
        (ofClasses classes).SameAnswers (ofClasses classes.reverse) ∧
        ∀ (config : Config) (q : Query),
          (ofClasses classes).toSql config q = (ofClasses classes.reverse).toSql config q := by
  let vehicle : ClassDef :=
    ((ClassDef.stored "Vehicle" "vehicle").withField
      (.plain "Kind" "kind" (.integer .w32))).withSelectorField "Kind"
  let car : ClassDef :=
    (ClassDef.derived "Car" "Vehicle").withSelectorValue (.integer ⟨.w32, 1, by decide⟩)
  let bike : ClassDef :=
    (ClassDef.derived "Bike" "Vehicle").withSelectorValue (.integer ⟨.w32, 2, by decide⟩)
  have distinct : ([vehicle, car, bike].map (·.name)).Nodup := by decide
  have perm : [vehicle, car, bike].Perm [vehicle, car, bike].reverse :=
    (List.reverse_perm _).symm
  have same := sameAnswers_and_statements_of_perm distinct perm
  exact ⟨_, distinct, perm, by decide, by decide, same.2.1, same.2.2.1⟩

end Schema

end ObjectQuery

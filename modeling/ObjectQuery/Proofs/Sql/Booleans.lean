import ObjectQuery.Proofs.Sql.Gathering
import ObjectQuery.Proofs.Sql.Shadowing

/-!
Contract: how truth values are written in a statement.

An engine has its own texts for booleans as values, and none for booleans as conditions, which are
written as comparisons that always or never hold. The position of a boolean literal decides. The
operand of a null test is a value, and a boolean there is written as a condition nevertheless.

Owns:
- `Position.written` and `Position.intended`, the text of a boolean by its position as it is and as
  it should be;
- `Query.truths`, the truth values of a query from left to right, and `truths_of_toSql`.

Does not own: the truth values in the conditions that keep the rows of a class.
-/

namespace ObjectQuery

open Sql
open Text (InTurn)

/-! ## Truth values of a query -/

/-- How a boolean is written in a position. -/
def Position.written (config : Config) : Position → Bool → String
  | .value, b => config.dialect.booleanText b
  | .nullTested, b | .condition, b => truthText b

/-- How a boolean should be written in a position: as a value of the engine where it is a value, and
as a condition where it is a condition. -/
def Position.intended (config : Config) : Position → Bool → String
  | .value, b | .nullTested, b => config.dialect.booleanText b
  | .condition, b => truthText b

/-- The truth value that an expression itself writes in a position. A literal of the values is always
written as a value, and a membership test without candidates is a condition that never holds. -/
def Expr.truth? (spell : Position → Bool → String) (position : Position) : Expr → Option String
  | .boolean value => some (spell position value)
  | .literal (.boolean value) => some (spell .value value)
  | .oneOf _ [] => some (spell .condition false)
  | _ => none

/-- The truth values of a query from left to right. -/
def Query.truths (spell : Position → Bool → String) (q : Query) : List String :=
  q.occurrences.filterMap fun (position, e) => e.truth? spell position

theorem truthText_ne_booleanText (dialect : Dialect) (b : Bool) :
    truthText b ≠ dialect.booleanText b := by
  cases dialect <;> cases b <;> decide

theorem Position.written_eq_iff {config : Config} {position : Position} {b : Bool} :
    position.written config b = position.intended config b ↔ position ≠ .nullTested := by
  cases position with
  | value | condition => exact iff_of_true rfl (by rintro ⟨⟩)
  | nullTested => exact iff_of_false (truthText_ne_booleanText _ b) (fun differs => differs rfl)

/-- The two ways to write an expression differ for a boolean that is tested for null. -/
theorem Expr.truth?_written_eq_iff {config : Config} {position : Position} {e : Expr} :
    e.truth? (Position.written config) position = e.truth? (Position.intended config) position ↔
      ∀ b, (position, e) ≠ (.nullTested, .boolean b) := by
  constructor
  · rintro same b ⟨⟩
    exact truthText_ne_booleanText _ b (Option.some.inj same)
  · intro others
    cases e with
    | boolean b =>
      have elsewhere : position ≠ .nullTested := fun tested => others b (by rw [tested])
      exact congrArg some (Position.written_eq_iff.mpr elsewhere)
    | literal v => cases v <;> rfl
    | oneOf operand candidates => cases candidates <;> rfl
    | _ => rfl

/-- Whether a truth value is written depends on the expression alone. -/
theorem Expr.isSome_truth? (spell spell' : Position → Bool → String) (position : Position)
    (e : Expr) : (e.truth? spell position).isSome = (e.truth? spell' position).isSome := by
  cases e with
  | literal v => cases v <;> rfl
  | oneOf operand candidates => cases candidates <;> rfl
  | _ => rfl

/-- Where two functions keep the same elements, the results agree when the functions do. -/
theorem filterMap_eq_filterMap_iff {α β : Type} {f g : α → Option β}
    (alike : ∀ item, (f item).isSome = (g item).isSome) {items : List α} :
    items.filterMap f = items.filterMap g ↔ ∀ item ∈ items, f item = g item := by
  constructor
  · intro same
    induction items with
    | nil => exact List.forall_mem_nil _
    | cons first rest inductionHypothesis =>
      have kept := alike first
      rw [List.filterMap_cons, List.filterMap_cons] at same
      cases ofF : f first with
      | none =>
        cases ofG : g first with
        | none =>
          rw [ofF, ofG] at same
          exact List.forall_mem_cons.mpr ⟨ofF.trans ofG.symm, inductionHypothesis same⟩
        | some result =>
          rw [ofF, ofG] at kept
          cases kept
      | some result =>
        cases ofG : g first with
        | none =>
          rw [ofF, ofG] at kept
          cases kept
        | some result' =>
          rw [ofF, ofG] at same
          obtain ⟨rfl, sameRest⟩ := List.cons.inj same
          exact List.forall_mem_cons.mpr ⟨ofF.trans ofG.symm, inductionHypothesis sameRest⟩
  · exact List.filterMap_congr

/-- All truth values of a query are written as they should be when no boolean is tested for null. -/
theorem Query.truths_written_eq_iff {config : Config} {q : Query} :
    q.truths (Position.written config) = q.truths (Position.intended config) ↔
      ∀ b, (.nullTested, .boolean b) ∉ q.occurrences := by
  unfold truths
  rw [filterMap_eq_filterMap_iff fun occurrence => Expr.isSome_truth? _ _ _ _]
  simp only [Expr.truth?_written_eq_iff]
  constructor
  · intro others b member
    exact others _ member b rfl
  · intro absent occurrence member b tested
    exact absent b (tested ▸ member)

/-! ## Truth values of a statement -/

namespace Sql

/-- The term is a truth value. -/
def Term.isTruth : Term → Bool
  | .literal (.boolean _) | .truth _ => true
  | _ => false

/-- The truth values that stand in the clauses of a statement, from left to right. -/
def Select.truths (select : Select) : List Term :=
  select.leaves.filter (·.isTruth)

/-- The text of a term if it is a truth value. -/
def Term.ownTruth (config : Config) (t : Term) : List String :=
  ([t].filter (·.isTruth)).map (·.text config)

theorem Select.texts_truths (config : Config) (select : Select) :
    select.truths.map (·.text config) = select.leaves.flatMap (Term.ownTruth config) := by
  show _ = select.leaves.flatMap fun t => ([t].filter (·.isTruth)).map (·.text config)
  rw [← List.map_flatMap, ← List.filter_flatMap, List.flatMap_singleton']
  rfl

theorem Term.ownTruth_eq_nil {config : Config} (t : Term) (notAtom : t.isAtom = false) :
    t.ownTruth config = [] := by
  cases t with
  | literal v => cases v <;> first | rfl | cases notAtom
  | _ => first | rfl | cases notAtom

/-- The texts of an expression's own term. -/
theorem ownTruth_ownTerm? (config : Config) (position : Position) (e : Expr) :
    (e.ownTerm? position).toList.flatMap (Term.ownTruth config) =
      (e.truth? (Position.written config) position).toList := by
  cases e with
  | literal v => cases v <;> rfl
  | boolean b => cases position <;> rfl
  | oneOf operand candidates => cases candidates <;> rfl
  | _ => rfl

theorem Select.inTurn_truths (config : Config) (select : Select) :
    InTurn (select.truths.map (·.text config)) (select.text config) :=
  (select.inTurn_leaves config).sublist (List.filter_sublist.map _)

/-- The truth values of a statement are those of its query. -/
theorem truths_of_toSelect (config : Config) {schema : Schema} {q : Query} {select : Select}
    (translated : schema.toSelect q = .ok select) :
    select.truths.map (·.text config) = q.truths (Position.written config) := by
  rw [select.texts_truths, Gathering.gathered_of_toSelect translated _ Term.ownTruth_eq_nil,
    Query.truths, List.filterMap_eq_flatMap_toList]
  exact List.flatMap_congr fun occurrence _ => ownTruth_ownTerm? config _ _

end Sql

/-! ## The text -/

/-- Where a query is translated, its truth values stand in the SQL text from left to right, each
written by its position: a boolean that stands for a value in the way of the engine, and any other,
among them a boolean that is tested for null, as a condition. They are all written as they should be
if and only if no boolean literal is tested for null. Every boolean literal of the query is among
them, but for those in a membership test without candidates. -/
theorem truths_of_toSql
    (schema : Schema)
    (config : Config)
    (q : Query)
    (sql : String)
    (translated : schema.toSql config q = .ok sql) :
    ∃ select, schema.toSelect q = .ok select ∧ select.text config = sql ∧
      select.truths.map (·.text config) = q.truths (Position.written config) ∧
      InTurn (q.truths (Position.written config)) sql ∧
      (q.truths (Position.written config) = q.truths (Position.intended config) ↔
        ∀ b, (.nullTested, .boolean b) ∉ q.occurrences) ∧
      ∀ b, (Expr.query q).Has (fun node => node.isEmptyTest = false) (.boolean b) →
        ∃ position, (position, .boolean b) ∈ q.occurrences := by
  obtain ⟨select, ran, finished⟩ := bind_eq_ok.mp translated
  obtain rfl := Except.ok.inj finished
  have same := truths_of_toSelect config ran
  refine ⟨select, ran, rfl, same, same ▸ select.inTurn_truths config,
    Query.truths_written_eq_iff, ?_⟩
  intro b has
  obtain ⟨position, member⟩ := Expr.exists_mem_occurrences has rfl .value
  rw [Expr.occurrences_eq] at member
  cases List.mem_cons.mp member with
  | inl same => cases same
  | inr inClauses => exact ⟨position, inClauses⟩

/-- `select true from Group where false or true is null` -/
def trueIsNull : Query :=
  ⟨false, [⟨.boolean true, none⟩], [⟨"Group", none⟩],
    some (.or (.boolean false) (.nullTest (.boolean true) false)), [], none, []⟩

theorem truths_trueIsNull (spell : Position → Bool → String) :
    trueIsNull.truths spell = [spell .value true, spell .condition false, spell .nullTested true] := by
  cbv

theorem truths_of_toSql_trueIsNull :
    ∃ sql, clubSchema.toSql .forPostgres trueIsNull = .ok sql ∧
      InTurn ["true", "(1=0)", "(1=1)"] sql ∧
      ∃ position, (position, .boolean true) ∈ trueIsNull.occurrences := by
  obtain ⟨statement, ran⟩ : ∃ statement, clubSchema.toSelect trueIsNull = .ok statement :=
    exists_eq_ok (by cbv)
  have translated :
      clubSchema.toSql .forPostgres trueIsNull = .ok (statement.text .forPostgres) :=
    bind_eq_ok.mpr ⟨statement, ran, rfl⟩
  obtain ⟨-, -, -, -, inTurn, -, placed⟩ :=
    truths_of_toSql clubSchema .forPostgres trueIsNull _ translated
  rw [truths_trueIsNull] at inTurn
  have selected : Expr.boolean true ∈ (Expr.query trueIsNull).parts := List.mem_cons_self
  exact ⟨_, translated, inTurn, placed true (.single ⟨rfl, selected⟩)⟩

/-- The boolean that is tested for null stands for a value and is written as a condition. -/
theorem not_intended_trueIsNull :
    clubSchema.toSql .forPostgres trueIsNull =
        .ok "select true from \"_group\" \"t0\" where ((1=0) or ((1=1) is null))" ∧
      trueIsNull.truths (Position.written .forPostgres) = ["true", "(1=0)", "(1=1)"] ∧
      trueIsNull.truths (Position.intended .forPostgres) = ["true", "(1=0)", "true"] := by
  refine ⟨by cbv, ?_, ?_⟩
  · exact truths_trueIsNull _
  · exact truths_trueIsNull _

end ObjectQuery

import ObjectQuery.Proofs.Expr.Parts
import ObjectQuery.Sql.Statement

/-!
Contract: the positions in which the expressions of a query stand.

A tree does not say whether an expression stands for a value or for a condition; the node around it
does. Parts that leave no trace in the statement have no position: the null of a null test, and the
operand of a membership test without candidates.

Owns:
- `Position`, and `Expr.placed` and `Query.placed`, the parts of a node with their positions;
- `Expr.occurrences` and `Query.occurrences`, all expressions in a query with their positions.

Does not own: what is written for them.
-/

namespace ObjectQuery

open Sql

/-- Where an expression stands: it is a value, it is a value of which only the presence is tested,
or it is a condition. -/
inductive Position where
  | value
  | nullTested
  | condition
deriving DecidableEq, Repr

/-- The clauses of a query in their order: conditions behind `where` and `having`, else values. -/
def Query.placed (q : Query) : List (Position × Expr) :=
  q.select.map (fun item => (.value, item.expression)) ++ q.condition.toList.map (.condition, ·)
    ++ q.groupBy.map (.value, ·) ++ q.having.toList.map (.condition, ·)
    ++ q.orderBy.map (fun item => (.value, item.expression))

theorem Query.clauses_eq_map (q : Query) : q.clauses = q.placed.map Prod.snd := by
  simp [Query.clauses, Query.placed, Function.comp_def]

namespace Expr

/-- The parts of a node that are written, each in its position. -/
def placed : Expr → List (Position × Expr)
  | .binary _ left right => [(.value, left), (.value, right)]
  | .negate operand => [(.value, operand)]
  | .call _ arguments => arguments.map (.value, ·)
  | .and left right | .or left right => [(.condition, left), (.condition, right)]
  | .not operand => [(.condition, operand)]
  | .relational op left right =>
    match nullComparison? op left right with
    | some _ => [(.nullTested, if right.isNullLiteral then left else right)]
    | none => [(.value, left), (.value, right)]
  | .oneOf operand candidates =>
    if candidates.isEmpty then [] else (operand :: candidates).map (.value, ·)
  | .nullTest operand _ => [(.nullTested, operand)]
  | .query q | .nonempty q => q.placed
  | .contains _ _ element => [(if element.isBoolean then .condition else .value, element)]
  | .literal _ | .parameter .. | .path _ | .raw _ | .boolean _ | .count .. | .asterisk _
  | .classTag _ => []

/-- What is written of a node are parts of it. -/
theorem mem_parts_of_mem_placed {e : Expr} {placed : Position × Expr} (member : placed ∈ e.placed) :
    placed.2 ∈ e.parts := by
  cases e with
  | literal _ | parameter _ _ | path _ | raw _ | boolean _ | count _ _ | asterisk _ | classTag _ =>
    cases member
  | binary _ _ _ | and _ _ | or _ _ =>
    simp only [Expr.placed, List.mem_cons, List.not_mem_nil, or_false] at member
    rcases member with rfl | rfl
    · exact List.mem_cons_self
    · exact List.mem_cons_of_mem _ List.mem_cons_self
  | negate _ | not _ | nullTest _ _ =>
    obtain rfl := List.mem_singleton.mp member
    exact List.mem_cons_self
  | call _ arguments =>
    obtain ⟨argument, isArgument, rfl⟩ := List.mem_map.mp member
    exact parts_call ▸ isArgument
  | relational op left right =>
    rw [Expr.placed] at member
    split at member
    · obtain rfl := List.mem_singleton.mp member
      split
      · exact List.mem_cons_self
      · exact List.mem_cons_of_mem _ List.mem_cons_self
    · simp only [List.mem_cons, List.not_mem_nil, or_false] at member
      rcases member with rfl | rfl
      · exact List.mem_cons_self
      · exact List.mem_cons_of_mem _ List.mem_cons_self
  | oneOf operand candidates =>
    rw [Expr.placed] at member
    split at member
    · cases member
    · obtain ⟨part, isPart, rfl⟩ := List.mem_map.mp member
      exact parts_oneOf ▸ isPart
  | query q | nonempty q =>
    refine List.mem_append_right _ ?_
    show placed.2 ∈ q.clauses
    rw [q.clauses_eq_map]
    exact List.mem_map_of_mem member
  | contains _ _ element =>
    obtain rfl := List.mem_singleton.mp member
    exact parts_contains ▸ List.mem_singleton_self element

/-- What stands in the parts of a node stands in those that are written: only the null of a null
test and the operand of an empty membership test are not. -/
theorem flatMap_placed
    {α : Type}
    {inside : Expr → List α}
    (ofNull : ∀ e, e.isNullLiteral = true → inside e = [])
    {e : Expr}
    (hasCandidates : e.isEmptyTest = false) :
    (e.placed.flatMap fun placed => inside placed.2) = e.parts.flatMap inside := by
  cases e with
  | literal _ | parameter _ _ | path _ | raw _ | boolean _ | count _ _ | asterisk _ | classTag _
  | binary _ _ _ | and _ _ | or _ _ | negate _ | not _ | nullTest _ _ => rfl
  | call _ arguments => rw [parts_call, placed, List.flatMap_map]
  | contains _ _ element =>
    rw [parts_contains]
    rfl
  | query q | nonempty q =>
    show (q.placed.flatMap fun placed => inside placed.2) = q.clauses.flatMap inside
    rw [q.clauses_eq_map, List.flatMap_map]
  | oneOf operand candidates =>
    rw [parts_oneOf]
    cases candidates with
    | nil => cases hasCandidates
    | cons first rest => exact List.flatMap_map (Position.value, ·) _ (operand :: first :: rest)
  | relational op left right =>
    show _ = inside left ++ (inside right ++ [])
    rw [placed]
    split
    · next negated comparison =>
      split
      · next isNull => simp [ofNull right isNull]
      · next notNull =>
        have isNull := (isNullLiteral_of_nullComparison? comparison).resolve_right notNull
        simp [ofNull left isNull]
    · rfl

/-- The expressions in an expression that are written, itself first, in the order of the text. -/
def occurrences (position : Position) (e : Expr) : List (Position × Expr) :=
  (position, e) :: e.placed.attach.flatMap fun ⟨placed, _⟩ => placed.2.occurrences placed.1
termination_by sizeOf e
decreasing_by exact sizeOf_lt_of_mem_parts (mem_parts_of_mem_placed ‹_›)

theorem occurrences_eq (position : Position) (e : Expr) :
    e.occurrences position =
      (position, e) :: e.placed.flatMap fun placed => placed.2.occurrences placed.1 := by
  conv => rhs; rw [← List.attach_map_subtype_val e.placed, List.flatMap_map]
  rw [occurrences]

end Expr

/-- The expressions in a query that are written, in the order of the text. -/
def Query.occurrences (q : Query) : List (Position × Expr) :=
  q.placed.flatMap fun placed => placed.2.occurrences placed.1

/-- A null has no parts. -/
theorem Expr.isNullLiteral_eq_false_of_has
    {enter : Expr → Prop}
    {e part : Expr}
    (has : e.Has enter part)
    (present : part.isNullLiteral = false) :
    e.isNullLiteral = false := by
  cases Relation.ReflTransGen.cases_head has with
  | inl same => exact same ▸ present
  | inr through =>
    obtain ⟨inner, ⟨-, isPart⟩, -⟩ := through
    cases e with
    | literal _ => cases isPart
    | _ => rfl

/-- All that stands in an expression is written, but for nulls and for what stands in a membership
test without candidates. -/
theorem Expr.exists_mem_occurrences
    {e part : Expr}
    (has : e.Has (fun node => node.isEmptyTest = false) part)
    (present : part.isNullLiteral = false)
    (position : Position) :
    ∃ position', (position', part) ∈ e.occurrences position := by
  induction has using Relation.ReflTransGen.head_induction_on generalizing position with
  | refl => exact ⟨position, by rw [occurrences_eq]; exact List.mem_cons_self⟩
  | @head e inner step inside inductionHypothesis =>
    obtain ⟨hasCandidates, isPart⟩ := step
    let kept (e : Expr) : List Expr := if e.isNullLiteral then [] else [e]
    have notNull := isNullLiteral_eq_false_of_has inside present
    have isKept : inner ∈ e.placed.flatMap fun placed => kept placed.2 := by
      rw [flatMap_placed (fun e isNull => by simp [kept, isNull]) hasCandidates]
      exact List.mem_flatMap.mpr ⟨inner, isPart, by simp [kept, notNull]⟩
    obtain ⟨⟨position', inner'⟩, isPlaced, same⟩ := List.mem_flatMap.mp isKept
    obtain rfl : inner = inner' := by
      simp only [kept] at same
      split at same
      · cases same
      · exact List.mem_singleton.mp same
    obtain ⟨position'', member⟩ := inductionHypothesis position'
    refine ⟨position'', ?_⟩
    rw [occurrences_eq]
    exact List.mem_cons_of_mem _ (List.mem_flatMap.mpr ⟨_, isPlaced, member⟩)

end ObjectQuery

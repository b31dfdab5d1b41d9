import Mathlib.Logic.Relation
import ObjectQuery.Expr

/-!
Contract: what stands in an expression.

Owns:
- `Expr.operands` and `Expr.clauses`, the expressions directly in a node: those of its own level and
  those of a level that it opens;
- `Expr.Has`, an expression at any depth of another one, and recursion on parts;
- `Expr.Everywhere`, a property of all of them;
- what single nodes are or write.

Does not own: what names mean in a level.
-/

namespace ObjectQuery

/-- What holds of all that is reached from a whole through parts holds of the whole, and of all that
is reached from its parts if these are entered. -/
theorem forall_within_iff {α : Type} {parts : α → List α} {enter holds : α → Prop} {whole : α} :
    (∀ part, Relation.ReflTransGen (fun outer inner => enter outer ∧ inner ∈ parts outer) whole part →
        holds part) ↔
      holds whole ∧ (enter whole → ∀ first ∈ parts whole, ∀ part,
        Relation.ReflTransGen (fun outer inner => enter outer ∧ inner ∈ parts outer) first part →
          holds part) := by
  constructor
  · intro all
    exact ⟨all whole .refl,
      fun entered first member part within => all part (.head ⟨entered, member⟩ within)⟩
  · rintro ⟨here, inside⟩ part within
    cases Relation.ReflTransGen.cases_head within with
    | inl same => exact same ▸ here
    | inr through =>
      obtain ⟨first, ⟨entered, member⟩, within⟩ := through
      exact inside entered first member part within

/-- The expressions of all clauses of a query, in their order. -/
def Query.clauses (q : Query) : List Expr :=
  q.select.map (·.expression) ++ q.condition.toList ++ q.groupBy ++ q.having.toList
    ++ q.orderBy.map (·.expression)

namespace Expr

/-- The expressions directly in a node that belong to the level of the node. -/
def operands : Expr → List Expr
  | .binary _ left right | .and left right | .or left right | .relational _ left right =>
    [left, right]
  | .negate operand | .not operand | .nullTest operand _ => [operand]
  | .call _ arguments => arguments
  | .oneOf operand candidates => operand :: candidates
  | .contains _ _ element => if element.isBoolean then [] else [element]
  | _ => []

/-- The expressions directly in a node that belong to a level of its own. -/
def clauses : Expr → List Expr
  | .query q | .nonempty q => q.clauses
  | .contains _ _ element => if element.isBoolean then [element] else []
  | _ => []

/-- The expressions directly in a node. -/
def parts (e : Expr) : List Expr :=
  e.operands ++ e.clauses

theorem parts_call {function : String} {arguments : List Expr} :
    (call function arguments).parts = arguments :=
  List.append_nil _

theorem parts_oneOf {operand : Expr} {candidates : List Expr} :
    (oneOf operand candidates).parts = operand :: candidates :=
  List.append_nil _

theorem parts_contains {owner : List String} {collection : String} {element : Expr} :
    (contains owner collection element).parts = [element] := by
  cases kind : element.isBoolean <;> simp [parts, operands, clauses, kind]

/-- A membership test without candidates. -/
def isEmptyTest : Expr → Bool
  | .oneOf _ [] => true
  | _ => false

/-- The node is a text that is taken over as it stands. -/
def isRaw : Expr → Bool
  | .raw _ => true
  | _ => false

/-- The names that a node writes, other than those of the schema: a function, and the labels of a
select list. -/
def ownNames : Expr → List String
  | .call function _ => [function]
  | .query q | .nonempty q => q.select.filterMap (·.label)
  | _ => []

/-- An expression stands in another at some depth, or is the other, and the nodes around it may all
be entered. -/
def Has (enter : Expr → Prop) : Expr → Expr → Prop :=
  Relation.ReflTransGen fun whole part => enter whole ∧ part ∈ whole.parts

theorem sizeOf_lt_of_mem_clauses {part : Expr} {q : Query} (member : part ∈ q.clauses) :
    sizeOf part < sizeOf q := by
  obtain ⟨distinct, select, sources, condition, groupBy, having, orderBy⟩ := q
  rw [Query.mk.sizeOf_spec]
  simp only [Query.clauses, List.mem_append, List.mem_map, Option.mem_toList] at member
  rcases member with (((⟨item, isItem, rfl⟩ | isPart) | isPart) | isPart) | ⟨item, isItem, rfl⟩
  · have smaller := List.sizeOf_lt_of_mem isItem
    have inItem : sizeOf item.expression < sizeOf item := by
      obtain ⟨expression, label⟩ := item
      rw [SelectItem.mk.sizeOf_spec]
      show sizeOf expression < 1 + sizeOf expression + sizeOf label
      omega
    omega
  · rw [Option.mem_def.mp isPart, Option.some.sizeOf_spec]
    omega
  · have smaller := List.sizeOf_lt_of_mem isPart
    omega
  · rw [Option.mem_def.mp isPart, Option.some.sizeOf_spec]
    omega
  · have smaller := List.sizeOf_lt_of_mem isItem
    have inItem : sizeOf item.expression < sizeOf item := by
      obtain ⟨expression, ascending⟩ := item
      rw [OrderItem.mk.sizeOf_spec]
      show sizeOf expression < 1 + sizeOf expression + sizeOf ascending
      omega
    omega

/-- Parts are smaller. -/
theorem sizeOf_lt_of_mem_parts {part e : Expr} (member : part ∈ e.parts) :
    sizeOf part < sizeOf e := by
  cases e with
  | literal _ | raw _ | parameter _ _ | boolean _ | path _ | asterisk _ | classTag _ | count _ _ =>
    cases member
  | query q =>
    have smaller := sizeOf_lt_of_mem_clauses member
    rw [Expr.query.sizeOf_spec]
    omega
  | nonempty q =>
    have smaller := sizeOf_lt_of_mem_clauses member
    rw [Expr.nonempty.sizeOf_spec]
    omega
  | binary _ _ _ | and _ _ | or _ _ | relational _ _ _ | negate _ | not _ | nullTest _ _ =>
    simp only [parts, operands, clauses, List.append_nil, List.mem_cons, List.not_mem_nil,
      or_false] at member
    grind [Expr.binary.sizeOf_spec, Expr.and.sizeOf_spec, Expr.or.sizeOf_spec,
      Expr.relational.sizeOf_spec, Expr.negate.sizeOf_spec, Expr.not.sizeOf_spec,
      Expr.nullTest.sizeOf_spec]
  | call _ arguments =>
    rw [parts_call] at member
    have smaller := List.sizeOf_lt_of_mem member
    rw [Expr.call.sizeOf_spec]
    omega
  | oneOf operand candidates =>
    rw [parts_oneOf] at member
    rw [Expr.oneOf.sizeOf_spec]
    rcases List.mem_cons.mp member with rfl | isCandidate
    · omega
    · have smaller := List.sizeOf_lt_of_mem isCandidate
      omega
  | contains owner collection element =>
    rw [parts_contains] at member
    rw [Expr.contains.sizeOf_spec, List.mem_singleton.mp member]
    omega

/-- What holds of an expression whenever it holds of its parts holds of every expression. -/
theorem parts_induction {motive : Expr → Prop}
    (step : ∀ e, (∀ part ∈ e.parts, motive part) → motive e) (e : Expr) : motive e :=
  step e fun part member =>
    have := sizeOf_lt_of_mem_parts member
    parts_induction step part
termination_by sizeOf e

section

variable {enter : Expr → Prop} {e part : Expr}

/-- What holds of all that stands in an expression holds of it, and of all that stands in its parts
if these are entered. -/
theorem forall_has_iff {holds : Expr → Prop} :
    (∀ part, e.Has enter part → holds part) ↔
      holds e ∧ (enter e → ∀ inner ∈ e.parts, ∀ part, inner.Has enter part → holds part) :=
  forall_within_iff

/-- Everything that stands in an expression has a property. -/
def Everywhere (holds : Expr → Prop) (e : Expr) : Prop :=
  ∀ part, e.Has (fun _ => True) part → holds part

theorem everywhere_iff {holds : Expr → Prop} :
    e.Everywhere holds ↔ holds e ∧ ∀ part ∈ e.parts, part.Everywhere holds :=
  forall_has_iff.trans (and_congr_right fun _ => forall_prop_of_true trivial)

theorem Everywhere.of_has {holds : Expr → Prop} (everywhere : e.Everywhere holds)
    (has : e.Has enter part) : holds part :=
  everywhere part (Relation.ReflTransGen.mono (fun _ _ step => ⟨trivial, step.2⟩) _ _ has)

section

variable {holds : Expr → Prop} {left right : Expr} (here : holds e)

include here

theorem everywhere_of_leaf (noParts : e.parts = []) : e.Everywhere holds :=
  everywhere_iff.mpr ⟨here, noParts ▸ List.forall_mem_nil _⟩

theorem everywhere_of_part (onePart : e.parts = [part]) (ofPart : part.Everywhere holds) :
    e.Everywhere holds :=
  everywhere_iff.mpr ⟨here, onePart ▸ List.forall_mem_singleton.mpr ofPart⟩

theorem everywhere_of_pair (twoParts : e.parts = [left, right])
    (ofLeft : left.Everywhere holds)
    (ofRight : right.Everywhere holds) : e.Everywhere holds :=
  everywhere_iff.mpr ⟨here, twoParts ▸ List.forall_mem_cons.mpr
    ⟨ofLeft, List.forall_mem_singleton.mpr ofRight⟩⟩

end

end

end Expr

end ObjectQuery

import ObjectQuery.Expr.Evaluation
import ObjectQuery.Proofs.Value.Joining

/-!
Contract: conjunctions and disjunctions of many conditions.

A tree of `and` nodes, and likewise one of `or` nodes, joins the outcomes of its leaves. How the
leaves are nested does not matter, and their order only tells which of several failures is reported.

Owns:
- `Expr.conditionAt`, the outcome of an expression as a condition;
- `Nesting`, the trees over given leaves, and the junctions that they stand for;
- the value of a junction, by the conditions of its leaves.

Does not own: the joining of outcomes.
-/

namespace ObjectQuery

namespace Expr

/-- The truth of a condition whose bare names belong to the root object. -/
def conditionAt (store : Store) (root : Nat) (e : Expr) : Except Error Truth :=
  e.evaluateAt store root >>= Truth.ofValue

/-- The node that joins two conditions: `or` where true decides, `and` where false does. -/
def junction (dominant : Bool) (left right : Expr) : Expr :=
  match dominant with
  | true => .or left right
  | false => .and left right

variable {store : Store} {root : Nat}

theorem evaluateAt_junction (dominant : Bool) (left right : Expr) :
    (junction dominant left right).evaluateAt store root =
      (Truth.join dominant (left.conditionAt store root)
        (right.conditionAt store root)).map Truth.toValue := by
  cases dominant with
  | true => rw [junction, evaluateAt, Truth.disjoin, conditionAt, conditionAt]
  | false => rw [junction, evaluateAt, Truth.conjoin, conditionAt, conditionAt]

theorem conditionAt_junction (dominant : Bool) (left right : Expr) :
    (junction dominant left right).conditionAt store root =
      Truth.join dominant (left.conditionAt store root) (right.conditionAt store root) := by
  rw [conditionAt, evaluateAt_junction, Truth.map_toValue_bind_ofValue]

theorem evaluateAt_not (e : Expr) :
    (Expr.not e).evaluateAt store root =
      ((e.conditionAt store root).map Truth.not).map Truth.toValue := by
  rw [evaluateAt, ← conditionAt]
  cases e.conditionAt store root <;> rfl

theorem conditionAt_not (e : Expr) :
    (Expr.not e).conditionAt store root = (e.conditionAt store root).map Truth.not := by
  rw [conditionAt, evaluateAt_not, Truth.map_toValue_bind_ofValue]

end Expr

/-- A way to take expressions together in pairs. -/
inductive Nesting where
  | leaf (e : Expr)
  | pair (left right : Nesting)

namespace Nesting

/-- The expressions that are taken together, from left to right. -/
def leaves : Nesting → List Expr
  | leaf e => [e]
  | pair left right => left.leaves ++ right.leaves

/-- The expression that joins the leaves pair by pair. -/
def joined (dominant : Bool) : Nesting → Expr
  | leaf e => e
  | pair left right => .junction dominant (left.joined dominant) (right.joined dominant)

theorem leaves_ne_nil (tree : Nesting) : tree.leaves ≠ [] := by
  induction tree with
  | leaf e => exact List.cons_ne_nil e []
  | pair left right ofLeft _ => exact List.append_ne_nil_of_left_ne_nil ofLeft _

theorem eq_leaf_of_leaves {tree : Nesting} {e : Expr} (single : tree.leaves = [e]) :
    tree = leaf e := by
  cases tree with
  | leaf e' => rw [List.head_eq_of_cons_eq single]
  | pair left right =>
    rcases List.append_eq_singleton_iff.mp single with ⟨none, _⟩ | ⟨_, none⟩
    · exact absurd none left.leaves_ne_nil
    · exact absurd none right.leaves_ne_nil

variable {store : Store} {root : Nat} {dominant : Bool}

/-- A junction is true, false, unknown or fails as the join of its leaves. -/
theorem conditionAt_joined (tree : Nesting) :
    (tree.joined dominant).conditionAt store root =
      Truth.joinAll dominant (tree.leaves.map (·.conditionAt store root)) := by
  induction tree with
  | leaf e => exact (Truth.join_neutral_right dominant _).symm
  | pair left right ofLeft ofRight =>
    rw [joined, Expr.conditionAt_junction, ofLeft, ofRight, leaves, List.map_append,
      Truth.joinAll_append]

theorem evaluateAt_joined_pair (left right : Nesting) :
    ((pair left right).joined dominant).evaluateAt store root =
      (Truth.joinAll dominant
        ((pair left right).leaves.map (·.conditionAt store root))).map Truth.toValue := by
  rw [joined, Expr.evaluateAt_junction, conditionAt_joined, conditionAt_joined,
    ← Truth.joinAll_append, ← List.map_append, leaves]

/-- The same leaves in another nesting give the same value. -/
theorem evaluateAt_joined_congr {tree tree' : Nesting} (sameLeaves : tree.leaves = tree'.leaves) :
    (tree.joined dominant).evaluateAt store root =
      (tree'.joined dominant).evaluateAt store root := by
  cases tree with
  | leaf e => rw [eq_leaf_of_leaves sameLeaves.symm]
  | pair left right =>
    cases tree' with
    | leaf e => rw [eq_leaf_of_leaves sameLeaves]
    | pair left' right' => rw [evaluateAt_joined_pair, evaluateAt_joined_pair, sameLeaves]

/-- The same leaves in another order give the same value, or fail in another way. -/
theorem evaluateAt_joined_perm {tree tree' : Nesting} (reordered : tree.leaves.Perm tree'.leaves) :
    (tree.joined dominant).evaluateAt store root = (tree'.joined dominant).evaluateAt store root ∨
      (∃ error, (tree.joined dominant).evaluateAt store root = .error error) ∧
        ∃ error, (tree'.joined dominant).evaluateAt store root = .error error := by
  cases tree with
  | leaf e => exact .inl (evaluateAt_joined_congr (List.singleton_perm.mp reordered))
  | pair left right =>
    cases tree' with
    | leaf e => exact .inl (evaluateAt_joined_congr (List.perm_singleton.mp reordered))
    | pair left' right' =>
      rw [evaluateAt_joined_pair, evaluateAt_joined_pair]
      exact Truth.map_joinAll_eq_or_errors dominant fun _ => (reordered.map _).mem_iff

/-- The negation of a junction is the dual junction of the negated leaves. -/
theorem evaluateAt_not_joined {tree tree' : Nesting}
    (negated : tree'.leaves = tree.leaves.map .not) :
    (Expr.not (tree.joined dominant)).evaluateAt store root =
      (tree'.joined !dominant).evaluateAt store root := by
  have conditions : tree'.leaves.map (·.conditionAt store root) =
      (tree.leaves.map (·.conditionAt store root)).map (·.map Truth.not) := by
    rw [negated, List.map_map, List.map_map]
    exact List.map_congr_left fun e _ => Expr.conditionAt_not e
  cases tree' with
  | leaf e =>
    obtain ⟨e', single, rfl⟩ := List.map_eq_singleton_iff.mp negated.symm
    rw [eq_leaf_of_leaves single]
    rfl
  | pair left right =>
    rw [Expr.evaluateAt_not, conditionAt_joined, evaluateAt_joined_pair, conditions,
      Truth.joinAll_map_not]

end Nesting

/-- A conjunction (`dominant` is false) or a disjunction (`dominant` is true) of two or more leaves
is what its leaves make it, whatever the leaves are. Another nesting of the same leaves has the same
value, another order may only fail in another way, and the negation is the dual junction of the
negated leaves, failures included. -/
theorem junctions_by_leaves (store : Store) (root : Nat) (dominant : Bool) :
    (∀ left right : Nesting,
      Truth.Verdict dominant ((left.pair right).leaves.map (·.conditionAt store root))
        (((left.pair right).joined dominant).evaluateAt store root)) ∧
    (∀ tree tree' : Nesting, tree.leaves = tree'.leaves →
      (tree.joined dominant).evaluateAt store root =
        (tree'.joined dominant).evaluateAt store root) ∧
    (∀ tree tree' : Nesting, tree.leaves.Perm tree'.leaves →
      (tree.joined dominant).evaluateAt store root =
          (tree'.joined dominant).evaluateAt store root ∨
        (∃ error, (tree.joined dominant).evaluateAt store root = .error error) ∧
          ∃ error, (tree'.joined dominant).evaluateAt store root = .error error) ∧
    ∀ tree tree' : Nesting, tree'.leaves = tree.leaves.map .not →
      (Expr.not (tree.joined dominant)).evaluateAt store root =
        (tree'.joined !dominant).evaluateAt store root := by
  refine ⟨fun left right => ?_, fun _ _ => Nesting.evaluateAt_joined_congr,
    fun _ _ => Nesting.evaluateAt_joined_perm, fun _ _ => Nesting.evaluateAt_not_joined⟩
  rw [Nesting.evaluateAt_joined_pair]
  exact Truth.verdict_joinAll

/-- `(1 / 0 = 1 and null = 1) and Age = 1` in another nesting, in another order and negated. `Age`
is a property of an object that the empty store does not have, so that two leaves fail. -/
theorem junctions_by_leaves_two_failures :
    let one : Expr := .literal (.integer ⟨.w32, 1, by decide⟩)
    let zero : Expr := .literal (.integer ⟨.w32, 0, by decide⟩)
    let divided : Expr := .relational .equal (.binary .divide one zero) one
    let unknown : Expr := .relational .equal (.literal .null) one
    let missing : Expr := .relational .equal (.path ⟨[], "Age"⟩) one
    let value (e : Expr) : Outcome := e.evaluateAt Store.empty 0
    value (.and (.and divided unknown) missing) = value (.and divided (.and unknown missing)) ∧
    (value (.and (.and divided unknown) missing) = value (.and missing (.and unknown divided)) ∨
      (∃ error, value (.and (.and divided unknown) missing) = .error error) ∧
        ∃ error, value (.and missing (.and unknown divided)) = .error error) ∧
    value (.not (.and (.and divided unknown) missing)) =
      value (.or (.not divided) (.or (.not unknown) (.not missing))) := by
  intro one zero divided unknown missing value
  obtain ⟨_, renested, reordered, negated⟩ := junctions_by_leaves Store.empty 0 false
  let inward (a b c : Expr) : Nesting := (Nesting.leaf a).pair ((Nesting.leaf b).pair (.leaf c))
  let tree : Nesting := ((Nesting.leaf divided).pair (.leaf unknown)).pair (.leaf missing)
  refine ⟨renested tree (inward divided unknown missing) rfl,
    reordered tree (inward missing unknown divided) ?_,
    negated tree (inward (.not divided) (.not unknown) (.not missing)) rfl⟩
  exact List.reverse_perm [missing, unknown, divided]

end ObjectQuery

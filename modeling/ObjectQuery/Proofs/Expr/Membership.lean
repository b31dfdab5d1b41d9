import ObjectQuery.Proofs.Expr.Folding
import ObjectQuery.Proofs.Expr.Junctions
import ObjectQuery.Proofs.Expr.NormalForm

/-!
Contract: membership in a list of candidates.

A membership test is the disjunction of the equalities of its operand with the candidates. It can be
evaluated as that disjunction, and a search among constants, which stops at the first candidate that
decides, gives the same where it gives anything.

Owns: the value of a membership test, by the equalities that it stands for.

Does not own: the joining of outcomes, and the search among constants.
-/

namespace ObjectQuery

namespace Expr

variable {store : Store} {root : Nat}

theorem conditionAt_relational (op : RelationalOp) (left right : Expr) :
    (relational op left right).conditionAt store root =
      (do Value.compare op (← left.evaluateAt store root) (← right.evaluateAt store root)) := by
  rw [conditionAt, evaluateAt]
  cases left.evaluateAt store root with
  | error error => rfl
  | ok a =>
    cases right.evaluateAt store root with
    | error error => rfl
    | ok b => exact Truth.map_toValue_bind_ofValue (Value.compare op a b)

theorem evaluateAt_relational (op : RelationalOp) (left right : Expr) :
    (relational op left right).evaluateAt store root =
      ((relational op left right).conditionAt store root).map Truth.toValue := by
  rw [conditionAt_relational, evaluateAt]
  cases left.evaluateAt store root with
  | error error => rfl
  | ok a => cases right.evaluateAt store root <;> rfl

/-- A membership test joins the equalities with the candidates. -/
theorem evaluateAt_oneOf (operand : Expr) (candidates : List Expr) :
    (oneOf operand candidates).evaluateAt store root =
      (Truth.joinAll true (candidates.map fun candidate =>
        (relational .equal operand candidate).conditionAt store root)).map Truth.toValue := by
  simp only [evaluateAt, anyEqual_eq_joinAll, evaluateEach_eq_map, List.map_map,
    conditionAt_relational]
  rfl

/-- Equalities that are added to a condition one after the other are joined to it. -/
theorem evaluateAt_foldl_or (operand : Expr) (candidates : List Expr) {found : Expr}
    (isCondition : found.evaluateAt store root =
      (found.conditionAt store root).map Truth.toValue) :
    (candidates.foldl (fun found candidate => .or found (.relational .equal operand candidate))
        found).evaluateAt store root =
      ((candidates.map fun candidate =>
        (relational .equal operand candidate).conditionAt store root).foldl (Truth.join true)
          (found.conditionAt store root)).map Truth.toValue := by
  induction candidates generalizing found with
  | nil => exact isCondition
  | cons candidate rest inductionHypothesis =>
    have condition : (junction true found (relational .equal operand candidate)).conditionAt
        store root = Truth.join true (found.conditionAt store root)
          ((relational .equal operand candidate).conditionAt store root) :=
      conditionAt_junction true found _
    rw [List.foldl_cons, List.map_cons, List.foldl_cons, ← condition]
    apply inductionHypothesis
    exact (evaluateAt_junction true found _).trans
      (congrArg (Except.map Truth.toValue) condition.symm)

/-- A membership test has the value of the disjunction that it abbreviates. -/
theorem evaluateAt_expandOneOf (operand : Expr) (candidates : List Expr) :
    (expandOneOf operand candidates).evaluateAt store root =
      (oneOf operand candidates).evaluateAt store root := by
  cases candidates with
  | nil => rfl
  | cons first rest =>
    rw [expandOneOf, evaluateAt_foldl_or operand rest (evaluateAt_relational ..), Truth.foldl_join,
      evaluateAt_oneOf, List.map_cons, Truth.joinAll_cons]

/-- Candidates in another order, or repeated, give the same value if there is one. -/
theorem evaluateAt_oneOf_eq_ok_congr {operand : Expr} {candidates candidates' : List Expr}
    (sameMembers : ∀ candidate, candidate ∈ candidates ↔ candidate ∈ candidates')
    (value : Value) :
    (oneOf operand candidates).evaluateAt store root = .ok value ↔
      (oneOf operand candidates').evaluateAt store root = .ok value := by
  rw [evaluateAt_oneOf, evaluateAt_oneOf]
  have sameEqualities (outcome : Except Error Truth) :
      (outcome ∈ candidates.map fun candidate =>
        (relational .equal operand candidate).conditionAt store root) ↔
      outcome ∈ candidates'.map fun candidate =>
        (relational .equal operand candidate).conditionAt store root := by
    simp only [List.mem_map, sameMembers]
  have sameOrErrors := Truth.map_joinAll_eq_or_errors true sameEqualities
  rcases sameOrErrors with same | ⟨⟨error, failed⟩, error', failed'⟩
  · rw [same]
  · rw [failed, failed']
    simp only [reduceCtorEq]

/-! ## Constants -/

theorem simplify_of_isConstant {e : Expr} (constant : e.isConstant = true) : e.simplify = e := by
  cases e with
  | literal _ | boolean _ => rfl
  | _ => cases constant

/-- Constants are searched as they are. -/
theorem simplify_oneOf_of_isConstant {operand : Expr} {candidates : List Expr}
    (constant : operand.isConstant = true)
    (constants : ∀ candidate ∈ candidates, candidate.isConstant = true) :
    (oneOf operand candidates).simplify = Fold.oneOf operand candidates := by
  cases candidates with
  | nil =>
    obtain ⟨value, isValue⟩ := Option.isSome_iff_exists.mp constant
    simp [simplify, Fold.oneOf, isValue, Fold.among?, Fold.ofTruth]
  | cons first rest =>
    have each : ∀ candidate ∈ first :: rest, candidate.simplify = candidate :=
      fun candidate member => simplify_of_isConstant (constants candidate member)
    rw [simplify, simplifyEach_eq_map, ← List.map_cons, simplify_of_isConstant constant,
      map_eq_self each]

end Expr

/-- A membership test has one meaning. It is false without candidates, even if its operand fails,
and otherwise what the equalities with the candidates make it. It has the value of the disjunction
that it abbreviates. Candidates that are reordered or repeated do not change a value. Where the
search among constants gives a literal, the literal is the value of the test, and simplification
does this search for constants. -/
theorem oneOf_by_equalities (store : Store) (root : Nat) (operand : Expr) :
    (Expr.oneOf operand []).evaluateAt store root = .ok (.boolean false) ∧
    (∀ candidates : List Expr,
      Truth.Verdict true
        (candidates.map fun candidate =>
          (Expr.relational .equal operand candidate).conditionAt store root)
        ((Expr.oneOf operand candidates).evaluateAt store root)) ∧
    (∀ candidates : List Expr,
      (Expr.oneOf operand candidates).evaluateAt store root =
        (Expr.expandOneOf operand candidates).evaluateAt store root) ∧
    (∀ candidates candidates' : List Expr,
      (∀ candidate, candidate ∈ candidates ↔ candidate ∈ candidates') →
      ∀ value, (Expr.oneOf operand candidates).evaluateAt store root = .ok value ↔
        (Expr.oneOf operand candidates').evaluateAt store root = .ok value) ∧
    (∀ (candidates : List Expr) (value : Value),
      (Fold.oneOf operand candidates).constant? = some value →
      (Expr.oneOf operand candidates).evaluateAt store root = .ok value) ∧
    ∀ candidates : List Expr, operand.isConstant = true →
      (∀ candidate ∈ candidates, candidate.isConstant = true) →
      (Expr.oneOf operand candidates).simplify = Fold.oneOf operand candidates := by
  refine ⟨rfl, fun candidates => ?_, fun candidates => (Expr.evaluateAt_expandOneOf ..).symm,
    fun _ _ => Expr.evaluateAt_oneOf_eq_ok_congr, fun candidates value literal => ?_,
    fun _ => Expr.simplify_oneOf_of_isConstant⟩
  · rw [Expr.evaluateAt_oneOf]
    exact Truth.verdict_joinAll
  · rw [← Fold.evaluateAt_oneOf]
    exact Expr.evaluateAt_of_constant literal

/-- `2 in (null, 3, null)` is unknown like `2 in (3, null)`, and `2 in (null, 2, today)` is true
although a number is no date: the search ends in front of it. -/
theorem oneOf_by_equalities_early_match :
    let int (n : Int) (fits : IntWidth.w32.Holds n) : Expr := .literal (.integer ⟨.w32, n, fits⟩)
    let null : Expr := .literal .null
    let today : Expr :=
      .literal (.dateTime ⟨⟨2024, 3, 1, by decide, by decide⟩, ⟨0, 0, 0, 0, by decide, by decide⟩⟩)
    let among (candidates : List Expr) : Expr := .oneOf (int 2 (by decide)) candidates
    let value (e : Expr) : Outcome := e.evaluateAt Store.empty 0
    (value (among [null, int 3 (by decide), null]) = .ok .null ↔
      value (among [int 3 (by decide), null]) = .ok .null) ∧
    value (among [null, int 2 (by decide), today]) = .ok (.boolean true) ∧
    (among [null, int 2 (by decide), today]).simplify =
      Fold.oneOf (int 2 (by decide)) [null, int 2 (by decide), today] := by
  intro int null today among value
  obtain ⟨_, _, _, sameMembers, literal, constants⟩ :=
    oneOf_by_equalities Store.empty 0 (int 2 (by decide))
  refine ⟨sameMembers _ _ (fun candidate => ?_) .null, literal _ _ (by rfl),
    constants _ rfl (by simp [int, null, today, Expr.isConstant, Expr.constant?])⟩
  simp only [List.mem_cons, List.not_mem_nil]
  tauto

end ObjectQuery

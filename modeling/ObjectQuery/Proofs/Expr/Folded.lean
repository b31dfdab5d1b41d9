import ObjectQuery.Proofs.Expr.NormalForm

/-!
Contract: what simplification leaves of a tree without raw text.

Owns: `Expr.Settled`, which holds of every node of a simplified tree.

Does not own: values.
-/

namespace ObjectQuery

/-- A node that adds no raw text, has names of a kind alone, and is a negated number only where the
negation has no value. -/
structure Expr.Settled (named : String → Prop) (e : Expr) : Prop where
  not_raw : e.isRaw = false
  names : ∀ name ∈ e.ownNames, named name
  negation : ∀ v, e = .negate (.literal v) → v.isNumeric = true → v.negate.isOk = false

variable {named : String → Prop}

theorem Expr.settled_of_isConstant {e : Expr} (constant : e.isConstant = true) :
    e.Settled named := by
  cases e with
  | literal _ | boolean _ => exact ⟨rfl, List.forall_mem_nil _, fun _ => Expr.noConfusion⟩
  | _ => cases constant

theorem Query.labels_simplify (q : Query) :
    q.simplify.select.filterMap (·.label) = q.select.filterMap (·.label) := by
  obtain ⟨distinct, select, sources, condition, groupBy, having, orderBy⟩ := q
  rw [simplify, SelectItem.simplifyEach_eq_map, List.filterMap_map]
  rfl

namespace Expr

theorem isRaw_simplifyParts (e : Expr) : e.simplifyParts.isRaw = e.isRaw := by
  cases e <;> rfl

theorem ownNames_simplifyParts (e : Expr) : e.simplifyParts.ownNames = e.ownNames := by
  cases e with
  | query q | nonempty q => exact q.labels_simplify
  | _ => rfl

/-- In a simplified tree without raw text every node is settled. -/
theorem everywhere_simplify {e : Expr}
    (clean : e.Everywhere fun part => part.isRaw = false ∧ ∀ name ∈ part.ownNames, named name) :
    e.simplify.Everywhere (Settled named) := by
  apply everywhere_simplify_of (fun _ => settled_of_isConstant) _ clean
  rintro e ⟨noRaw, ofNames⟩ irreducible
  refine ⟨e.isRaw_simplifyParts ▸ noRaw, e.ownNames_simplifyParts ▸ ofNames, ?_⟩
  intro v negation isNumeric
  rw [negation] at irreducible
  simpa [isRedex, isNumeric] using irreducible

end Expr

end ObjectQuery

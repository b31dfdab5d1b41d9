import ObjectQuery.Proofs.Expr.Parts

/-!
Contract: numbers with a minus sign, and signs in front of them.

Owns: `Expr.SignFree`, the trees in which nothing that is written negates a number with a sign of
its own.

Does not own: how a negation is written.
-/

namespace ObjectQuery

namespace Expr

/-- A literal number that is written with a minus sign. -/
def IsSigned : Expr → Prop
  | .literal v => v.isNumeric = true ∧ v.text.toList.head? = some '-'
  | _ => False

/-- The negation of a number that is written with a minus sign itself. -/
def DoublesSign : Expr → Prop
  | .negate operand => operand.IsSigned
  | _ => False

/-- No number with a sign of its own is negated. The parts of a membership test without candidates
are not written. -/
def SignFree (e : Expr) : Prop :=
  ∀ part, e.Has (·.isEmptyTest = false) part → ¬part.DoublesSign

theorem signFree_iff {e : Expr} :
    e.SignFree ↔ ¬e.DoublesSign ∧ (e.isEmptyTest = false → ∀ part ∈ e.parts, part.SignFree) :=
  forall_has_iff

section

variable {e part left right : Expr} (noNegation : ¬e.DoublesSign) (written : e.isEmptyTest = false)

include noNegation written

/-- A node that is no such negation itself. -/
theorem signFree_iff_parts : e.SignFree ↔ ∀ part ∈ e.parts, part.SignFree :=
  signFree_iff.trans ((and_iff_right noNegation).trans (forall_prop_of_true written))

theorem signFree_of_leaf (noParts : e.parts = []) : e.SignFree :=
  (signFree_iff_parts noNegation written).mpr (noParts ▸ List.forall_mem_nil _)

theorem signFree_iff_part (onePart : e.parts = [part]) : e.SignFree ↔ part.SignFree := by
  rw [signFree_iff_parts noNegation written, onePart, List.forall_mem_singleton]

theorem signFree_iff_pair (twoParts : e.parts = [left, right]) :
    e.SignFree ↔ left.SignFree ∧ right.SignFree := by
  rw [signFree_iff_parts noNegation written, twoParts, List.forall_mem_cons,
    List.forall_mem_singleton]

end

theorem signFree_of_isNullLiteral {e : Expr} (isNull : e.isNullLiteral = true) : e.SignFree := by
  cases e with
  | literal _ => exact signFree_of_leaf id rfl rfl
  | _ => cases isNull

theorem signFree_of_isBareAsterisk {e : Expr} (bare : e.isBareAsterisk = true) : e.SignFree := by
  cases e with
  | asterisk _ => exact signFree_of_leaf id rfl rfl
  | _ => cases bare

theorem signFree_negate_iff {operand : Expr} :
    (negate operand).SignFree ↔ operand.SignFree ∧ ¬operand.IsSigned := by
  rw [signFree_iff, and_comm]
  exact and_congr_left fun _ => (forall_prop_of_true rfl).trans List.forall_mem_singleton

end Expr

end ObjectQuery

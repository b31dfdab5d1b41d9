import ObjectQuery.Expr.Evaluation
import Mathlib.Data.List.Forall2

/-!
Contract: outcomes that keep the values of other outcomes.

An outcome keeps another one when it gives every value that the other one gives; where the other one
fails it may do anything. The operations of evaluation respect this, although false and true absorb
failures: an operand that is absorbed while it fails is absorbed as well when it has a value.

Owns: `Keeps` and one lemma for each operation that combines outcomes.

Does not own: expressions.
-/

namespace ObjectQuery

variable {α β : Type}

/-- Every value of the first outcome is the value of the second one. -/
def Keeps (before after : Except Error α) : Prop :=
  ∀ value, before = .ok value → after = .ok value

namespace Keeps

theorem refl (outcome : Except Error α) : Keeps outcome outcome :=
  fun _ evaluated => evaluated

theorem of_error (error : Error) (after : Except Error α) : Keeps (.error error) after := by
  intro value evaluated
  cases evaluated

theorem of_eq {before after : Except Error α} (same : before = after) : Keeps before after := by
  rw [same]
  exact refl after

theorem trans
    {first second third : Except Error α}
    (left : Keeps first second)
    (right : Keeps second third) :
    Keeps first third :=
  fun value evaluated => right value (left value evaluated)

theorem bind
    {before after : Except Error α}
    {next next' : α → Except Error β}
    (kept : Keeps before after)
    (keptNext : ∀ value, Keeps (next value) (next' value)) :
    Keeps (before >>= next) (after >>= next') := by
  cases before with
  | error error => exact of_error error _
  | ok value =>
    rw [kept value rfl]
    exact keptNext value

theorem map
    {before after : Except Error α}
    (change : α → β)
    (kept : Keeps before after) :
    Keeps (before.map change) (after.map change) := by
  cases before with
  | error error => exact of_error error _
  | ok value =>
    rw [kept value rfl]
    exact refl _

end Keeps

/-! ## Truth -/

namespace Truth

theorem decides_keeps
    {dominant : Bool}
    {outcome outcome' : Except Error Truth}
    (kept : Keeps outcome outcome')
    (decided : decides dominant outcome = true) :
    decides dominant outcome' = true := by
  cases outcome with
  | error error => simp [decides] at decided
  | ok truth => rwa [kept truth rfl]

/-- A join has a value when one side decides or when both sides have values. -/
theorem decides_or_of_join_eq_ok
    {dominant : Bool}
    {left right : Except Error Truth}
    {value : Truth}
    (joined : join dominant left right = .ok value) :
    ((decides dominant left || decides dominant right) = true ∧ value = some dominant) ∨
      ∃ truth truth', left = .ok truth ∧ right = .ok truth' := by
  unfold join at joined
  by_cases decided : (decides dominant left || decides dominant right) = true
  · rw [if_pos decided] at joined
    exact .inl ⟨decided, (Except.ok.inj joined).symm⟩
  · rw [if_neg decided] at joined
    refine .inr ?_
    cases left with
    | error error => simp at joined
    | ok truth =>
      cases right with
      | error error => simp at joined
      | ok truth' => exact ⟨truth, truth', rfl, rfl⟩

/-- A side that decides still decides, and without one both sides have values. -/
theorem join_keeps
    (dominant : Bool)
    {left left' right right' : Except Error Truth}
    (keptLeft : Keeps left left')
    (keptRight : Keeps right right') :
    Keeps (join dominant left right) (join dominant left' right') := by
  intro value joined
  rcases decides_or_of_join_eq_ok joined with ⟨decided, rfl⟩ | ⟨truth, truth', rfl, rfl⟩
  · have decided' : (decides dominant left' || decides dominant right') = true := by
      rw [Bool.or_eq_true] at decided ⊢
      exact decided.imp (decides_keeps keptLeft) (decides_keeps keptRight)
    unfold join
    rw [if_pos decided']
  · rw [keptLeft truth rfl, keptRight truth' rfl, joined]

end Truth

/-! ## Functions -/

section Lists

variable {before after : List Outcome}

theorem firstPresent_keeps (kept : List.Forall₂ Keeps before after) :
    Keeps (firstPresent before) (firstPresent after) := by
  induction kept with
  | nil => exact Keeps.refl _
  | @cons outcome outcome' rest rest' keptFirst _ inductionHypothesis =>
    cases outcome with
    | error error => exact Keeps.of_error error _
    | ok value =>
      rw [keptFirst value rfl]
      cases value with
      | null => simpa only [firstPresent] using inductionHypothesis
      | _ => exact Keeps.refl _

theorem allValues_keeps (kept : List.Forall₂ Keeps before after) :
    Keeps (allValues before) (allValues after) := by
  induction kept with
  | nil => exact Keeps.refl _
  | @cons outcome outcome' rest rest' keptFirst _ inductionHypothesis =>
    cases outcome with
    | error error => exact Keeps.of_error error _
    | ok value =>
      rw [keptFirst value rfl]
      exact inductionHypothesis.map _

theorem applyFunction_keeps
    (function : String)
    (kept : List.Forall₂ Keeps before after) :
    Keeps (applyFunction function before) (applyFunction function after) := by
  by_cases presence : function.toLower = "coalesce" ∨ function.toLower = "isnull"
  · simp only [applyFunction, if_pos presence]
    exact firstPresent_keeps kept
  · simp only [applyFunction, if_neg presence]
    exact (allValues_keeps kept).bind fun _ => Keeps.refl _

/-! ## Membership -/

/-- The candidates are joined one after the other to what has been found so far. -/
theorem foldl_disjoin_keeps
    {operand operand' : Outcome}
    (keptOperand : Keeps operand operand')
    (kept : List.Forall₂ Keeps before after)
    {found found' : Except Error Truth}
    (keptFound : Keeps found found') :
    Keeps
      (before.foldl (fun found candidate =>
        Truth.disjoin found do Value.compare .equal (← operand) (← candidate)) found)
      (after.foldl (fun found candidate =>
        Truth.disjoin found do Value.compare .equal (← operand') (← candidate)) found') := by
  induction kept generalizing found found' with
  | nil => exact keptFound
  | cons keptFirst _ inductionHypothesis =>
    refine inductionHypothesis (Truth.join_keeps true keptFound ?_)
    exact keptOperand.bind fun _ => keptFirst.bind fun _ => Keeps.refl _

theorem anyEqual_keeps
    {operand operand' : Outcome}
    (keptOperand : Keeps operand operand')
    (kept : List.Forall₂ Keeps before after) :
    Keeps (anyEqual operand before) (anyEqual operand' after) :=
  foldl_disjoin_keeps keptOperand kept (Keeps.refl _)

end Lists

/-! ## Collections -/

theorem anyMatches_keeps
    {test test' : Nat → Except Error Bool}
    (kept : ∀ element, Keeps (test element) (test' element))
    (elements : List Nat) :
    Keeps (anyMatches test elements) (anyMatches test' elements) := by
  induction elements with
  | nil => exact Keeps.refl _
  | cons element rest inductionHypothesis =>
    refine (kept element).bind fun found => ?_
    cases found with
    | true => exact Keeps.refl _
    | false => exact inductionHypothesis

end ObjectQuery

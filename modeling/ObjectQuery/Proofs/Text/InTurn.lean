import Mathlib.Data.List.Basic

/-!
Contract: pieces that stand in a text one after another.

Owns: `InTurn`, with its laws for texts that are put together.

Does not own: which pieces a text has.
-/

namespace ObjectQuery.Text

/-- The pieces stand in the text in this order and without overlap, with any text between them. -/
inductive InTurn : List String → String → Prop where
  | nil (text : String) : InTurn [] text
  | cons (before piece : String) {pieces : List String} {text : String}
      (later : InTurn pieces text) : InTurn (piece :: pieces) (before ++ (piece ++ text))

namespace InTurn

variable {pieces pieces' : List String} {text text' : String}

/-- A text stands in itself. -/
theorem whole (text : String) : InTurn [text] text := by
  have alone := InTurn.cons "" text (.nil "")
  rwa [String.append_empty, String.empty_append] at alone

theorem behind (before : String) (inTurn : InTurn pieces text) : InTurn pieces (before ++ text) := by
  cases inTurn with
  | nil => exact .nil _
  | cons between piece later =>
    rw [← String.append_assoc]
    exact .cons (before ++ between) piece later

theorem append (inTurn : InTurn pieces text) (inTurn' : InTurn pieces' text') :
    InTurn (pieces ++ pieces') (text ++ text') := by
  induction inTurn with
  | nil text => exact inTurn'.behind text
  | cons before piece later inductionHypothesis =>
    rw [String.append_assoc, String.append_assoc]
    exact .cons before piece inductionHypothesis

theorem before (after : String) (inTurn : InTurn pieces text) : InTurn pieces (text ++ after) := by
  have followed := inTurn.append (.nil after)
  rwa [List.append_nil] at followed

/-- Fewer pieces stand in the text too. -/
theorem sublist (fewer : pieces'.Sublist pieces) (inTurn : InTurn pieces text) :
    InTurn pieces' text := by
  induction inTurn generalizing pieces' with
  | nil text =>
    rw [List.sublist_nil.mp fewer]
    exact .nil text
  | cons before piece later inductionHypothesis =>
    cases fewer with
    | cons _ fewer => exact ((inductionHypothesis fewer).behind piece).behind before
    | cons_cons _ fewer => exact .cons before piece (inductionHypothesis fewer)

/-- Texts with a separator between them. -/
theorem intercalate
    {α : Type}
    (separator : String)
    {items : List α}
    {pieces : α → List String}
    {text : α → String}
    (each : ∀ item ∈ items, InTurn (pieces item) (text item)) :
    InTurn (items.flatMap pieces) (separator.intercalate (items.map text)) := by
  induction items with
  | nil => exact .nil _
  | cons first rest inductionHypothesis =>
    obtain ⟨ofFirst, ofRest⟩ := List.forall_mem_cons.mp each
    cases rest with
    | nil =>
      rw [List.flatMap_singleton, List.map_singleton, String.intercalate_singleton]
      exact ofFirst
    | cons second others =>
      rw [List.map_cons, List.map_cons, String.intercalate_cons_cons]
      exact (ofFirst.before separator).append (inductionHypothesis ofRest)

end InTurn

end ObjectQuery.Text

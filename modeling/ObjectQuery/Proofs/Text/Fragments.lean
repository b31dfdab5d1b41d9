import Mathlib.Data.List.Basic
import ObjectQuery.Text.Lists

/-!
Contract: a text as a row of fragments in which the parameters are marked.

A text in which parameters are spelled in some way says by itself not where they are: a literal may
contain the same characters. Fragments do.

Owns:
- `Fragment`, and the text that fragments are written as;
- `Fragments.parameters`, the parameters from left to right;
- the laws of both for texts that are put together.

Does not own: the fragments of expressions and of statements.
-/

namespace ObjectQuery.Text

/-- A stretch of a text: characters as they stand, or a parameter. -/
inductive Fragment where
  | plain (text : String)
  | parameter (index : Nat) (modifier : Option String)
deriving DecidableEq, Repr

/-- The text of a fragment, where parameters are spelled in this way. -/
def Fragment.written (spell : Nat → Option String → String) : Fragment → String
  | .plain text => text
  | .parameter index modifier => spell index modifier

/-- The parameter that a fragment is. -/
def Fragment.index? : Fragment → Option Nat
  | .plain _ => none
  | .parameter index _ => some index

/-- A text as a row of fragments. -/
abbrev Fragments := List Fragment

namespace Fragments

/-- Characters as they stand. -/
def plain (text : String) : Fragments :=
  [.plain text]

/-- Several texts with a separator between them. -/
def joined (separator : String) (each : List Fragments) : Fragments :=
  (plain separator).intercalate each

/-- The text, where parameters are spelled in this way. -/
def written (spell : Nat → Option String → String) (fragments : Fragments) : String :=
  String.join (fragments.map (·.written spell))

/-- The parameters from left to right, as often as they occur. -/
def parameters (fragments : Fragments) : List Nat :=
  fragments.filterMap (·.index?)

/-! ## Texts -/

section

variable {spell : Nat → Option String → String}

@[simp]
theorem written_nil : written spell [] = "" :=
  String.join_nil

@[simp]
theorem written_plain (text : String) : written spell (plain text) = text := by
  simp [written, plain, Fragment.written]

@[simp]
theorem written_parameter (index : Nat) (modifier : Option String) :
    written spell [.parameter index modifier] = spell index modifier := by
  simp [written, Fragment.written]

@[simp]
theorem written_append (first second : Fragments) :
    written spell (first ++ second) = written spell first ++ written spell second := by
  rw [written, List.map_append, String.join_append]
  rfl

@[simp]
theorem written_joined (separator : String) (each : List Fragments) :
    written spell (joined separator each) = separator.intercalate (each.map (written spell)) := by
  unfold joined
  induction each with
  | nil => rw [List.map_nil, List.intercalate_nil, String.intercalate_nil, written_nil]
  | cons first rest inductionHypothesis =>
    cases rest with
    | nil => simp
    | cons second others =>
      rw [List.intercalate_cons_cons, written_append, written_append, inductionHypothesis,
        written_plain]
      exact String.intercalate_cons_cons.symm

end

/-! ## Parameters -/

@[simp]
theorem parameters_nil : parameters [] = [] :=
  rfl

@[simp]
theorem parameters_plain (text : String) : parameters (plain text) = [] :=
  rfl

@[simp]
theorem parameters_parameter (index : Nat) (modifier : Option String) :
    parameters [.parameter index modifier] = [index] :=
  rfl

@[simp]
theorem parameters_append (first second : Fragments) :
    parameters (first ++ second) = parameters first ++ parameters second :=
  List.filterMap_append

@[simp]
theorem parameters_joined (separator : String) (each : List Fragments) :
    parameters (joined separator each) = each.flatMap parameters := by
  unfold joined
  induction each with
  | nil => rfl
  | cons first rest inductionHypothesis =>
    cases rest with
    | nil => simp
    | cons second others =>
      rw [List.intercalate_cons_cons, parameters_append, parameters_append, inductionHypothesis,
        parameters_plain, List.append_nil]
      exact List.flatMap_cons.symm

end Fragments

end ObjectQuery.Text

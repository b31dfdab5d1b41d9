import Mathlib
import ObjectQuery.Proofs.Value.Exact

/-!
Contract: equality of values as data.

Two values are the same if they have one content. Decimals with different scales may have one
content, and so may zeros with different signs; a NaN has none and differs from itself.

Owns:
- `Value.content?` and `same_iff`, by which sameness is equality of contents;
- `Value.IsAmong`, membership up to sameness.

Does not own: the operators of comparison, for which values of different types may be equal.
-/

namespace ObjectQuery

theorem float_beq_iff (x y : Float) :
    (x == y) = true ↔
      x.isNaN = false ∧ y.isNaN = false ∧
        (if x = -0 then 0 else x) = (if y = -0 then 0 else y) := by
  rw [Float.beq_iff_ne_nan_and_eq]
  simp only [Float.isNaN_eq_decide_eq_nan, decide_eq_false_iff_not]
  split <;> split <;> grind

theorem float32_beq_iff (x y : Float32) :
    (x == y) = true ↔
      x.isNaN = false ∧ y.isNaN = false ∧
        (if x = -0 then 0 else x) = (if y = -0 then 0 else y) := by
  rw [Float32.beq_iff_ne_nan_and_eq]
  simp only [Float32.isNaN_eq_decide_eq_nan, decide_eq_false_iff_not]
  split <;> split <;> grind

theorem Decimal.sameNumber_iff (x y : Decimal) : x.sameNumber y = true ↔ x.toRat = y.toRat := by
  rw [Decimal.sameNumber, beq_iff_eq, Decimal.compare_eq_cmp, cmp_eq_eq_iff]

namespace Value

/-- What a value is the same by: its type with a content that is compared with `=`. -/
inductive Content where
  | null
  | boolean (value : Bool)
  | integer (value : Integer)
  | decimal (value : ℚ)
  | float (value : Float32)
  | double (value : Float)
  | string (value : String)
  | dateTime (value : DateTime)

/-- The content of a value, none for a NaN. -/
def content? : Value → Option Content
  | .null => some .null
  | .boolean b => some (.boolean b)
  | .integer n => some (.integer n)
  | .decimal d => some (.decimal d.toRat)
  | .float x => if x.isNaN then none else some (.float (if x = -0 then 0 else x))
  | .double x => if x.isNaN then none else some (.double (if x = -0 then 0 else x))
  | .string s => some (.string s)
  | .dateTime d => some (.dateTime d)

theorem same_iff (v w : Value) :
    v.same w = true ↔ v.content?.isSome = true ∧ v.content? = w.content? := by
  cases v with
  | float x =>
    cases w with
    | float y =>
      rw [same, float32_beq_iff, content?, content?]
      cases x.isNaN <;> cases y.isNaN <;> simp
    | double y =>
      have differs : (Value.float x).same (.double y) = false := rfl
      rw [differs, content?, content?]
      cases x.isNaN <;> cases y.isNaN <;> simp
    | _ => simp [same, content?]
  | double x =>
    cases w with
    | double y =>
      rw [same, float_beq_iff, content?, content?]
      cases x.isNaN <;> cases y.isNaN <;> simp
    | float y =>
      have differs : (Value.double x).same (.float y) = false := rfl
      rw [differs, content?, content?]
      cases x.isNaN <;> cases y.isNaN <;> simp
    | _ => simp [same, content?]
  | decimal d => cases w <;> simp [same, content?, Decimal.sameNumber_iff]
  | _ => cases w <;> simp [same, content?]

theorem same_trans {v w x : Value} (first : v.same w = true) (second : w.same x = true) :
    v.same x = true := by
  obtain ⟨isSome, equal⟩ := (same_iff v w).mp first
  exact (same_iff v x).mpr ⟨isSome, equal.trans ((same_iff w x).mp second).2⟩

/-! ## Lists of values -/

/-- One of the values is the same. -/
def IsAmong (v : Value) (values : List Value) : Prop :=
  ∃ w ∈ values, w.same v = true

theorem isAmong_append {v : Value} {first second : List Value} :
    v.IsAmong (first ++ second) ↔ v.IsAmong first ∨ v.IsAmong second := by
  simp only [IsAmong, List.mem_append, or_and_right, exists_or]

theorem isAmong_singleton {v w : Value} : v.IsAmong [w] ↔ w.same v = true := by
  simp only [IsAmong, List.mem_singleton, exists_eq_left]

end Value

end ObjectQuery

import ObjectQuery.Number.Power

/-!
Contract: signed integers of a fixed width.

Owns: the four widths with their ranges, the integers that lie in them, widening.

Does not own: arithmetic, which reports what does not fit.
-/

namespace ObjectQuery

/-- How many bits an integer has. -/
inductive IntWidth where
  | w8
  | w16
  | w32
  | w64
deriving DecidableEq, Repr

namespace IntWidth

/-- The number of bits. -/
def bits : IntWidth → Nat
  | .w8 => 8
  | .w16 => 16
  | .w32 => 32
  | .w64 => 64

/-- One past the greatest integer of the width; its negative is the least one. -/
def bound (width : IntWidth) : Int :=
  2 ^ (width.bits - 1)

/-- The integer lies in the range of the width. -/
def Holds (width : IntWidth) (value : Int) : Prop :=
  -width.bound ≤ value ∧ value < width.bound

instance (width : IntWidth) (value : Int) : Decidable (width.Holds value) :=
  inferInstanceAs (Decidable (_ ∧ _))

/-- The order of the widths: a wider one has a higher level. -/
def level : IntWidth → Nat
  | .w8 => 0
  | .w16 => 1
  | .w32 => 2
  | .w64 => 3

theorem bound_le_of_level_le
    {narrow wide : IntWidth}
    (ordered : narrow.level ≤ wide.level) :
    narrow.bound ≤ wide.bound := by
  cases narrow <;> cases wide <;> revert ordered <;> decide

end IntWidth

/-- An integer within the range of its width. -/
structure Integer where
  width : IntWidth
  value : Int
  inRange : width.Holds value
deriving DecidableEq, Repr

namespace Integer

/-- The integer at a width, when it fits. -/
def make? (width : IntWidth) (value : Int) : Option Integer :=
  if fits : width.Holds value then some ⟨width, value, fits⟩ else none

theorem make?_eq_some_iff {width : IntWidth} {value : Int} {n : Integer} :
    make? width value = some n ↔ n.width = width ∧ n.value = value := by
  unfold make?
  constructor
  · intro made
    split at made
    · obtain rfl := Option.some.inj made
      exact ⟨rfl, rfl⟩
    · simp at made
  · rintro ⟨rfl, rfl⟩
    rw [dif_pos n.inRange]

theorem make?_eq_none_iff {width : IntWidth} {value : Int} :
    make? width value = none ↔ ¬ width.Holds value := by
  simp [make?]

/-- The same integer at a width that is not narrower. -/
def widen? (width : IntWidth) (n : Integer) : Option Integer :=
  make? width n.value

theorem natAbs_lt (n : Integer) : n.value.natAbs < 2 ^ 96 := by
  have range := n.inRange
  have wide : n.width.bound ≤ IntWidth.bound .w64 :=
    IntWidth.bound_le_of_level_le (by cases n.width <;> decide)
  have top : IntWidth.bound .w64 = 9223372036854775808 := by decide
  unfold IntWidth.Holds at range
  omega

end Integer

end ObjectQuery

import ObjectQuery.Error

/-!
Contract: three-valued logic over outcomes that may also fail.

`some true`, `some false` and `none` are true, false and unknown. In a conjunction a false side
decides whatever happens on the other side, failure included; in a disjunction a true side does.

Owns: `Truth`, its connectives, and the reading of values as truth.
-/

namespace ObjectQuery

/-- True, false or unknown. -/
abbrev Truth := Option Bool

namespace Truth

/-- The opposite; unknown stays unknown. -/
def not (t : Truth) : Truth :=
  t.map (!·)

/-- True and false as values, unknown as null. -/
def toValue : Truth → Value
  | some b => .boolean b
  | none => .null

/-- A value as a truth; only booleans and null are one. -/
def ofValue : Value → Except Error Truth
  | .null => .ok none
  | .boolean b => .ok (some b)
  | v => .error (.notBoolean v.type)

/-- The outcome is definitely this boolean. -/
def decides (b : Bool) : Except Error Truth → Bool
  | .ok (some c) => b == c
  | _ => false

/-- Joins two outcomes when one side alone can decide for `dominant`: it does even when the other
side fails; without it the first failure counts, then an unknown side, and otherwise the result is
the opposite. -/
def join (dominant : Bool) (left right : Except Error Truth) : Except Error Truth :=
  if decides dominant left || decides dominant right then
    .ok (some dominant)
  else
    match left, right with
    | .error e, _ => .error e
    | _, .error e => .error e
    | .ok (some _), .ok (some _) => .ok (some !dominant)
    | _, _ => .ok none

/-- Both hold. -/
def conjoin (left right : Except Error Truth) : Except Error Truth :=
  join false left right

/-- At least one holds. -/
def disjoin (left right : Except Error Truth) : Except Error Truth :=
  join true left right

end Truth

end ObjectQuery

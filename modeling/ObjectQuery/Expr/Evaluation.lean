import ObjectQuery.Store
import ObjectQuery.Text.Case
import ObjectQuery.Value.Operators

/-!
Contract: the value of an expression over a store of objects.

Owns:
- `applyFunction`, the built-in functions;
- `Expr.evaluateAt`, the value at a root object;
- `Store.evaluate`, `Store.condition` and `Store.holds` at the store's own root.

Nested queries, raw text and `*` need a database and have no value here.
-/

namespace ObjectQuery

/-- The value of an expression, or why there is none. -/
abbrev Outcome := Except Error Value

/-- A number of things as an integer of a width. -/
def tallyValueAt (width : IntWidth) (tally : Tally) (count : Nat) : Outcome :=
  match Integer.make? width count with
  | some n => .ok (.integer n)
  | none => .error (.tallyOverflow tally count)

/-- A number of things as a 32-bit integer. -/
def tallyValue (tally : Tally) (count : Nat) : Outcome :=
  tallyValueAt .w32 tally count

/-- The first outcome that is not null; failures behind it do not count. -/
def firstPresent : List Outcome → Outcome
  | [] => .ok .null
  | .error e :: _ => .error e
  | .ok .null :: rest => firstPresent rest
  | .ok v :: _ => .ok v

/-- All values, or the first failure. -/
def allValues : List Outcome → Except Error (List Value)
  | [] => .ok []
  | .error e :: _ => .error e
  | .ok v :: rest => (allValues rest).map (v :: ·)

/-- Applies a function of one text; null stays null. -/
def onText (function : String) (apply : String → Outcome) : Value → Outcome
  | .null => .ok .null
  | .string s => apply s
  | v => .error (.argumentType function v.type)

/-- The size of a number; null stays null. -/
def absolute (function : String) (v : Value) : Outcome :=
  if v.isNull then
    .ok .null
  else if v.isNumeric then do
    let zero : Value := .integer ⟨.w8, 0, by decide⟩
    if (← Value.compare .less v zero) = some true then v.negate else pure v
  else
    .error (.argumentType function v.type)

/-- Calls a function by its name in any letter case. `coalesce` and `isnull` stop at the first
argument that is not null; the others need the values of all arguments. -/
def applyFunction (function : String) (arguments : List Outcome) : Outcome :=
  let name := function.toLower
  if name = "coalesce" ∨ name = "isnull" then
    firstPresent arguments
  else do
    let values ← allValues arguments
    let body? : Option (Value → Outcome) :=
      match name with
      | "lower" => some (onText function fun s => .ok (.string (Text.lower s)))
      | "upper" => some (onText function fun s => .ok (.string (Text.upper s)))
      | "len" => some (onText function fun s => tallyValue .stringLength s.length)
      | "abs" => some (absolute function)
      | _ => none
    match body?, values with
    | none, _ => .error (.unknownFunction function)
    | some body, [v] => body v
    | some _, _ => .error (.argumentCount function values.length)

/-- Whether one of the elements matches; a failure in front of the first match counts. -/
def anyMatches (test : Nat → Except Error Bool) : List Nat → Except Error Bool
  | [] => .ok false
  | element :: rest => do
    if ← test element then pure true else anyMatches test rest

/-- Whether a value equals one of the candidates, as the disjunction of the single equalities. -/
def anyEqual (operand : Outcome) (candidates : List Outcome) : Except Error Truth :=
  candidates.foldl
    (fun found candidate =>
      Truth.disjoin found do Value.compare .equal (← operand) (← candidate))
    (.ok (some false))

mutual

/-- The value of an expression whose bare names belong to the root object. The argument of
`contains` is a condition on the element if it is one by its kind; any other is a value, computed at
the root, that the element's key is compared with. -/
def Expr.evaluateAt (store : Store) (root : Nat) : Expr → Outcome
  | .literal v => .ok v
  | .parameter index _ => store.parameter index
  | .path p => do store.valueOf (← store.follow (.object root) p.segments)
  | .binary op left right => do
    Value.arithmetic op (← left.evaluateAt store root) (← right.evaluateAt store root)
  | .negate operand => do Value.negate (← operand.evaluateAt store root)
  | .call function arguments =>
    applyFunction function (Expr.evaluateEach store root arguments)
  | .raw _ => .error (.databaseOnly .rawText)
  | .query _ => .error (.databaseOnly .nestedQuery)
  | .and left right =>
    (Truth.conjoin (left.evaluateAt store root >>= Truth.ofValue)
      (right.evaluateAt store root >>= Truth.ofValue)).map Truth.toValue
  | .or left right =>
    (Truth.disjoin (left.evaluateAt store root >>= Truth.ofValue)
      (right.evaluateAt store root >>= Truth.ofValue)).map Truth.toValue
  | .not operand => do
    let t ← operand.evaluateAt store root >>= Truth.ofValue
    pure t.not.toValue
  | .relational op left right => do
    let t ← Value.compare op (← left.evaluateAt store root) (← right.evaluateAt store root)
    pure t.toValue
  | .oneOf operand candidates =>
    (anyEqual (operand.evaluateAt store root)
      (Expr.evaluateEach store root candidates)).map Truth.toValue
  | .nullTest operand negated => do
    pure (.boolean ((← operand.evaluateAt store root).isNull != negated))
  | .boolean b => .ok (.boolean b)
  | .nonempty _ => .error (.databaseOnly .existence)
  | .count owner collection => do
    match ← store.followToObject root owner (dotted owner) with
    | none => pure .null
    | some handle =>
      tallyValue .collectionSize (← store.collection handle collection).length
  | .contains owner collection element => do
    match ← store.followToObject root owner (dotted owner) with
    | none => pure .null
    | some handle =>
      let elements ← store.collection handle collection
      let test (item : Nat) : Except Error Bool :=
        if element.isBoolean then do
          let t ← element.evaluateAt store item >>= Truth.ofValue
          pure (t == some true)
        else do
          let wanted ← element.evaluateAt store root
          let t ← Value.compare .equal (← store.key item) wanted
          pure (t == some true)
      pure (.boolean (← anyMatches test elements))
  | .asterisk _ => .error (.databaseOnly .asterisk)
  | .classTag owner => do
    match ← store.followToObject root owner (dotted owner) with
    | none => pure .null
    | some handle => pure (.string (← store.className handle))

/-- The values of several expressions, each on its own. -/
def Expr.evaluateEach (store : Store) (root : Nat) : List Expr → List Outcome
  | [] => []
  | e :: rest => e.evaluateAt store root :: Expr.evaluateEach store root rest

end

theorem Expr.evaluateEach_eq_map (store : Store) (root : Nat) (es : List Expr) :
    evaluateEach store root es = es.map (·.evaluateAt store root) := by
  induction es with
  | nil => rfl
  | cons e rest inductionHypothesis => rw [evaluateEach, inductionHypothesis, List.map_cons]

namespace Store

/-- The value of an expression at the store's root. -/
def evaluate (store : Store) (e : Expr) : Outcome :=
  e.evaluateAt store store.root

/-- The truth of a condition at the store's root. -/
def condition (store : Store) (e : Expr) : Except Error Truth :=
  store.evaluate e >>= Truth.ofValue

/-- Whether a condition is definitely true at the store's root. -/
def holds (store : Store) (e : Expr) : Except Error Bool :=
  (store.condition e).map (· == some true)

end Store

end ObjectQuery

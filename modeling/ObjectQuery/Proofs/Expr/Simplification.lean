import ObjectQuery.Proofs.Expr.Folding

/-!
Contract: simplification keeps the value of an expression.

The argument of `contains` is read in one of two ways by its kind: a condition is asked of each
element, anything else is a value that the keys are compared with. Simplification may turn a
condition into something else, such as `true and Active` into `Active`, and then the argument is
read in the other way. Everywhere else the value is kept, failures that are absorbed included.

Owns:
- `Expr.everyReached`, a test of all nodes that evaluation can come to;
- `Expr.keepsKind`, which says that the argument of `contains` is still read in the same way;
- preservation of values by `Expr.simplify` under these tests, and a family that loses its values.

Does not own: the single folding rules.
-/

namespace ObjectQuery

mutual

/-- Every node that evaluation can come to passes the test. Nested queries are not entered. -/
def Expr.everyReached (test : Expr → Bool) (e : Expr) : Bool :=
  test e &&
    match e with
    | .binary _ left right | .and left right | .or left right | .relational _ left right =>
      left.everyReached test && right.everyReached test
    | .negate operand | .not operand | .nullTest operand _ => operand.everyReached test
    | .call _ arguments => Expr.everyReachedEach test arguments
    | .oneOf operand candidates =>
      operand.everyReached test && Expr.everyReachedEach test candidates
    | .contains _ _ element => element.everyReached test
    | _ => true

/-- Every node of several expressions that evaluation can come to passes the test. -/
def Expr.everyReachedEach (test : Expr → Bool) : List Expr → Bool
  | [] => true
  | e :: rest => e.everyReached test && Expr.everyReachedEach test rest

end

namespace Expr

/-- The node tests whether a collection contains something. -/
def isContains : Expr → Bool
  | contains .. => true
  | _ => false

/-- The argument of `contains` is a condition by its kind before simplification if and only if it is
one afterwards. Other nodes pass. -/
def keepsKind : Expr → Bool
  | contains _ _ element => element.isBoolean == element.simplify.isBoolean
  | _ => true

end Expr

section

variable {test : Expr → Bool} (store : Store)

mutual

/-- Simplification keeps the value at every root, as long as every argument of `contains` that
evaluation can come to keeps its kind. -/
theorem Expr.simplify_keeps
    (kind : ∀ e, test e = true → e.keepsKind = true) :
    ∀ (e : Expr) (root : Nat), e.everyReached test = true →
      Keeps (e.evaluateAt store root) (e.simplify.evaluateAt store root)
  | .literal _, _, _ => Keeps.refl _
  | .parameter .., _, _ => Keeps.refl _
  | .path _, _, _ => Keeps.refl _
  | .binary op left right, root, passed => by
    simp only [Expr.everyReached, Bool.and_eq_true] at passed
    refine Keeps.trans ?_ (Fold.binary_keeps op left.simplify right.simplify)
    rw [Expr.evaluateAt, Expr.evaluateAt]
    exact (Expr.simplify_keeps kind left root passed.2.1).bind fun _ =>
      (Expr.simplify_keeps kind right root passed.2.2).bind fun _ => Keeps.refl _
  | .negate operand, root, passed => by
    simp only [Expr.everyReached, Bool.and_eq_true] at passed
    refine Keeps.trans ?_ (Fold.negate_keeps operand.simplify)
    rw [Expr.evaluateAt, Expr.evaluateAt]
    exact (Expr.simplify_keeps kind operand root passed.2).bind fun _ => Keeps.refl _
  | .call function arguments, root, passed => by
    simp only [Expr.everyReached, Bool.and_eq_true] at passed
    rw [Expr.simplify, Expr.evaluateAt, Expr.evaluateAt]
    exact applyFunction_keeps function (Expr.simplifyEach_keeps kind arguments root passed.2)
  | .raw _, _, _ => Keeps.refl _
  | .query _, _, _ => Keeps.of_error _ _
  | .and left right, root, passed => by
    simp only [Expr.everyReached, Bool.and_eq_true] at passed
    refine Keeps.trans ?_ (Fold.and_keeps left.simplify right.simplify)
    rw [Expr.evaluateAt, Expr.evaluateAt]
    refine Keeps.map _ (Truth.join_keeps false ?_ ?_)
    · exact (Expr.simplify_keeps kind left root passed.2.1).bind fun _ => Keeps.refl _
    · exact (Expr.simplify_keeps kind right root passed.2.2).bind fun _ => Keeps.refl _
  | .or left right, root, passed => by
    simp only [Expr.everyReached, Bool.and_eq_true] at passed
    refine Keeps.trans ?_ (Fold.or_keeps left.simplify right.simplify)
    rw [Expr.evaluateAt, Expr.evaluateAt]
    refine Keeps.map _ (Truth.join_keeps true ?_ ?_)
    · exact (Expr.simplify_keeps kind left root passed.2.1).bind fun _ => Keeps.refl _
    · exact (Expr.simplify_keeps kind right root passed.2.2).bind fun _ => Keeps.refl _
  | .not operand, root, passed => by
    simp only [Expr.everyReached, Bool.and_eq_true] at passed
    refine Keeps.trans ?_ (Fold.not_keeps operand.simplify)
    rw [Expr.evaluateAt, Expr.evaluateAt]
    exact ((Expr.simplify_keeps kind operand root passed.2).bind fun _ => Keeps.refl _).bind
      fun _ => Keeps.refl _
  | .relational op left right, root, passed => by
    simp only [Expr.everyReached, Bool.and_eq_true] at passed
    refine Keeps.trans ?_ (Fold.relational_keeps op left.simplify right.simplify)
    rw [Expr.evaluateAt, Expr.evaluateAt]
    exact (Expr.simplify_keeps kind left root passed.2.1).bind fun _ =>
      (Expr.simplify_keeps kind right root passed.2.2).bind fun _ => Keeps.refl _
  | .oneOf operand [], root, _ => Keeps.refl _
  | .oneOf operand (first :: rest), root, passed => by
    simp only [Expr.everyReached, Bool.and_eq_true] at passed
    refine Keeps.trans ?_ (Fold.oneOf_keeps operand.simplify (Expr.simplifyEach (first :: rest)))
    rw [Expr.evaluateAt, Expr.evaluateAt]
    exact Keeps.map _ (anyEqual_keeps (Expr.simplify_keeps kind operand root passed.2.1)
      (Expr.simplifyEach_keeps kind (first :: rest) root passed.2.2))
  | .nullTest operand negated, root, passed => by
    simp only [Expr.everyReached, Bool.and_eq_true] at passed
    rw [Expr.simplify, Expr.evaluateAt, Expr.evaluateAt]
    exact (Expr.simplify_keeps kind operand root passed.2).bind fun _ => Keeps.refl _
  | .boolean _, _, _ => Keeps.refl _
  | .nonempty _, _, _ => Keeps.of_error _ _
  | .count .., _, _ => Keeps.refl _
  | .contains owner collection element, root, passed => by
    simp only [Expr.everyReached, Bool.and_eq_true] at passed
    have sameKind : element.isBoolean = element.simplify.isBoolean :=
      eq_of_beq (kind _ passed.1)
    rw [Expr.simplify, Expr.evaluateAt, Expr.evaluateAt, ← sameKind]
    refine (Keeps.refl _).bind fun found => ?_
    cases found with
    | none => exact Keeps.refl _
    | some handle =>
      refine (Keeps.refl _).bind fun elements => ?_
      refine (anyMatches_keeps (fun item => ?_) elements).bind fun _ => Keeps.refl _
      by_cases condition : element.isBoolean = true
      · simp only [condition, if_true]
        exact ((Expr.simplify_keeps kind element item passed.2).bind fun _ =>
          Keeps.refl _).bind fun _ => Keeps.refl _
      · simp only [condition]
        exact (Expr.simplify_keeps kind element root passed.2).bind fun _ => Keeps.refl _
  | .asterisk _, _, _ => Keeps.refl _
  | .classTag _, _, _ => Keeps.refl _

/-- Simplification keeps the values of several expressions. -/
theorem Expr.simplifyEach_keeps
    (kind : ∀ e, test e = true → e.keepsKind = true) :
    ∀ (es : List Expr) (root : Nat), Expr.everyReachedEach test es = true →
      List.Forall₂ Keeps (Expr.evaluateEach store root es)
        (Expr.evaluateEach store root (Expr.simplifyEach es))
  | [], _, _ => .nil
  | e :: rest, root, passed => by
    simp only [Expr.everyReachedEach, Bool.and_eq_true] at passed
    exact .cons (Expr.simplify_keeps kind e root passed.1)
      (Expr.simplifyEach_keeps kind rest root passed.2)

end

end

theorem Expr.keepsKind_of_not_isContains (e : Expr) (other : (!e.isContains) = true) :
    e.keepsKind = true := by
  cases e with
  | contains => simp [isContains] at other
  | _ => rfl

/-- An expression that tests no collection keeps its value, even where operands that fail are
absorbed. -/
theorem evaluate_simplify
    (store : Store)
    (e : Expr)
    (plain : e.everyReached (!·.isContains) = true)
    (value : Value)
    (evaluated : store.evaluate e = .ok value) :
    store.evaluate e.simplify = .ok value :=
  Expr.simplify_keeps store Expr.keepsKind_of_not_isContains e store.root plain value evaluated

/-- In `(1 / 0 = 1 and 1 = 2) or null + 1 is null` a failure is absorbed by a false side, null
absorbs a sum, and both sides fold. -/
theorem evaluate_simplify_absorbed_failure :
    let int (n : Int) (fits : IntWidth.w32.Holds n) : Expr := .literal (.integer ⟨.w32, n, fits⟩)
    let failing : Expr := .relational .equal
      (.binary .divide (int 1 (by decide)) (int 0 (by decide))) (int 1 (by decide))
    let e : Expr := .or
      (.and failing (.relational .equal (int 1 (by decide)) (int 2 (by decide))))
      (.nullTest (.binary .add (.literal .null) (int 1 (by decide))) false)
    Store.empty.evaluate e.simplify = .ok (.boolean true) := by
  intro int failing e
  exact evaluate_simplify Store.empty e (by decide) (.boolean true) (by rfl)

/-- A test of a collection keeps its value if its argument, and every argument of a test inside it,
is read in the same way afterwards. -/
theorem evaluate_simplify_contains
    (store : Store)
    (owner : List String)
    (collection : String)
    (element : Expr)
    (sameReading : (Expr.contains owner collection element).everyReached Expr.keepsKind = true)
    (value : Value)
    (evaluated : store.evaluate (.contains owner collection element) = .ok value) :
    store.evaluate (Expr.contains owner collection element).simplify = .ok value :=
  Expr.simplify_keeps store (fun _ kept => kept) _ store.root sameReading value evaluated

/-- In `Members.Contains(Active = true and true)` a conjunct is dropped and a condition is left. -/
theorem evaluate_simplify_contains_active_member :
    let active : Expr := .relational .equal (.path ⟨[], "Active"⟩) (.boolean true)
    let key (n : Int) (fits : IntWidth.w32.Holds n) : Value := .integer ⟨.w32, n, fits⟩
    let store : Store :=
      ⟨[⟨"Group", key 1 (by decide), [], [], [("Members", [1])]⟩,
        ⟨"Contact", key 2 (by decide), [("Active", .boolean true)], [], []⟩], none, []⟩
    store.evaluate (Expr.contains [] "Members" (.and active (.boolean true))).simplify =
      .ok (.boolean true) := by
  intro active key store
  exact evaluate_simplify_contains store [] "Members" (.and active (.boolean true)) (by rfl)
    (.boolean true) (by rfl)

-- The test is not necessary: the condition `null = 1` turns into the value `null`, which is among
-- no keys.
example :
    let one : Value := .integer ⟨.w32, 1, by decide⟩
    let e : Expr := .contains [] "Members" (.relational .equal (.literal .null) (.literal one))
    let store : Store := ⟨[⟨"Group", one, [], [], [("Members", [0])]⟩], none, []⟩
    e.keepsKind = false ∧ store.evaluate e = .ok (.boolean false) ∧
      store.evaluate e.simplify = .ok (.boolean false) :=
  ⟨rfl, rfl, rfl⟩

/-- Where `true` is dropped in front of a bare property, the argument turns from a condition into a
value. For all names there is a store that tells the two readings apart: its only element has the
property, the owner has not, and the element's key is a number other than zero. -/
theorem evaluate_contains_of_dropped_true (collection property : String) :
    ∃ store : Store,
      store.evaluate
          (.contains [] collection (.and (.boolean true) (.path ⟨[], property⟩))) =
        .ok (.boolean true) ∧
      store.evaluate
          (Expr.contains [] collection (.and (.boolean true) (.path ⟨[], property⟩))).simplify =
        .ok (.boolean false) := by
  let key (n : Int) (fits : IntWidth.w32.Holds n) : Value := .integer ⟨.w32, n, fits⟩
  let owner : StoredObject :=
    ⟨"Group", key 1 (by decide), [(property, .boolean false)], [], [(collection, [1])]⟩
  let member : StoredObject :=
    ⟨"Contact", key 2 (by decide), [(property, .boolean true)], [], []⟩
  let store : Store := ⟨[owner, member], none, []⟩
  have elements : store.collection 0 collection = .ok [1] := by
    simp [store, owner, Store.collection, Store.object, Named.get?, bind, Except.bind, pure,
      Except.pure]
  have ownerProperty : store.property 0 property = .ok (.value (.boolean false)) := by
    simp [store, owner, Store.property, Store.object, Named.get?, bind, Except.bind, pure,
      Except.pure]
  have memberProperty : store.property 1 property = .ok (.value (.boolean true)) := by
    simp [store, member, Store.property, Store.object, Named.get?, bind, Except.bind, pure,
      Except.pure]
  have memberKey : store.key 1 = .ok (key 2 (by decide)) := rfl
  have different :
      Value.compare .equal (key 2 (by decide)) (.boolean false) = .ok (some false) := by decide
  refine ⟨store, ?_, ?_⟩
  · change (Expr.contains [] collection _).evaluateAt store 0 = _
    simp [Expr.evaluateAt, Store.followToObject, Store.follow, Store.step, elements,
      memberProperty, anyMatches, Expr.isBoolean, Path.segments, Store.valueOf, bind, Except.bind,
      pure, Except.pure, Truth.ofValue, Truth.conjoin, Truth.join, Truth.decides, Except.map,
      Truth.toValue]
  · change (Expr.contains [] collection (.path ⟨[], property⟩)).evaluateAt store 0 = _
    simp [Expr.evaluateAt, Store.followToObject, Store.follow, Store.step, elements,
      ownerProperty, memberKey, different, anyMatches, Expr.isBoolean, Path.segments, Store.valueOf,
      bind, Except.bind, pure, Except.pure]

/-- Not every test of a collection keeps its value: there is a store in which
`Members.Contains(true and Active)` loses it. -/
theorem not_forall_evaluate_simplify_contains :
    ¬∀ (store : Store) (owner : List String) (collection : String) (element : Expr) (value : Value),
      store.evaluate (.contains owner collection element) = .ok value →
        store.evaluate (Expr.contains owner collection element).simplify = .ok value := by
  intro keeps
  obtain ⟨store, evaluated, changed⟩ := evaluate_contains_of_dropped_true "Members" "Active"
  have kept := keeps store _ _ _ _ evaluated
  rw [changed] at kept
  cases kept

end ObjectQuery

import ObjectQuery.Proofs.Expr.Arithmetic
import ObjectQuery.Proofs.Expr.Reading
import ObjectQuery.Proofs.Success

/-!
Contract: a where clause admits every expression that can be true.

A condition by its kind is true, false or unknown wherever it has a value. The other nodes whose
type does not depend on the data are never a boolean: arithmetic has no boolean results, a count is
a number and a class tag a text, and the boolean literals of a text have a node of their own.

Owns:
- `OnlyGives`, outcomes whose values have a property;
- what kinds of values the nodes have;
- that a text that is refused as a where clause holds in no store.

Does not own: nodes whose type the data decide.
-/

namespace ObjectQuery

/-- The value is true, false or unknown. -/
def Value.IsTruth (v : Value) : Prop :=
  v.isBoolean = true ∨ v.isNull = true

variable {α β : Type}

/-- Every value of the outcome has a property. -/
def OnlyGives (good : α → Prop) (outcome : Except Error α) : Prop :=
  ∀ value, outcome = .ok value → good value

namespace OnlyGives

variable {good : β → Prop}

theorem of_ok {value : β} (isGood : good value) : OnlyGives good (.ok value) := by
  rintro _ ⟨⟩
  exact isGood

theorem of_error (error : Error) : OnlyGives good (.error error) := by
  rintro _ ⟨⟩

theorem bind
    {first : Except Error α}
    {next : α → Except Error β}
    (ofNext : ∀ value, OnlyGives good (next value)) :
    OnlyGives good (first >>= next) := by
  cases first with
  | error error => exact of_error error
  | ok value => exact ofNext value

theorem map
    {change : α → β}
    (isGood : ∀ value, good (change value))
    (outcome : Except Error α) :
    OnlyGives good (outcome.map change) := by
  cases outcome with
  | error error => exact of_error error
  | ok value => exact of_ok (isGood value)

end OnlyGives

theorem Delivers.onlyGives
    {good : α → Prop}
    {expected : Error → Prop}
    {outcome : Except Error α}
    (delivers : Delivers good expected outcome) :
    OnlyGives good outcome := by
  cases delivers with
  | value isGood => exact .of_ok isGood
  | failure => exact .of_error _

theorem Truth.isTruth_toValue (t : Truth) : t.toValue.IsTruth := by
  cases t with
  | none => exact .inr rfl
  | some _ => exact .inl rfl

/-! ## Nodes -/

namespace Expr

variable {e : Expr}

/-- A condition by its kind is true, false or unknown where it has a value. -/
theorem onlyGives_isTruth (condition : e.isBoolean = true) (store : Store) (root : Nat) :
    OnlyGives Value.IsTruth (e.evaluateAt store root) := by
  cases e with
  | literal _ | parameter _ _ | path _ | binary _ _ _ | negate _ | call _ _ | raw _ | query _
  | count _ _ | asterisk _ | classTag _ => cases condition
  | and _ _ | or _ _ | oneOf _ _ =>
    rw [evaluateAt]
    exact .map Truth.isTruth_toValue _
  | not _ =>
    rw [evaluateAt]
    exact .bind fun t => .of_ok t.not.isTruth_toValue
  | relational _ _ _ =>
    rw [evaluateAt]
    exact .bind fun _ => .bind fun _ => .bind fun t => .of_ok t.isTruth_toValue
  | nullTest _ _ =>
    rw [evaluateAt]
    exact .bind fun _ => .of_ok (.inl rfl)
  | boolean _ => exact .of_ok (.inl rfl)
  | nonempty _ => exact .of_error _
  | contains _ _ _ =>
    rw [evaluateAt]
    apply OnlyGives.bind
    rintro (_ | _)
    · exact .of_ok (.inr rfl)
    · exact .bind fun _ => .bind fun _ => .of_ok (.inl rfl)

/-- Any other node whose type does not depend on the data is never a boolean. -/
theorem onlyGives_isScalar
    (readable : e.Readable)
    (noCondition : e.isBoolean = false)
    (notHostTyped : e.isHostTyped = false)
    (store : Store)
    (root : Nat) :
    OnlyGives Value.IsScalar (e.evaluateAt store root) := by
  cases e with
  | and _ _ | or _ _ | not _ | relational _ _ _ | oneOf _ _ | nullTest _ _ | boolean _
  | nonempty _ | contains _ _ _ => cases noCondition
  | path _ | parameter _ _ | call _ _ | raw _ => cases notHostTyped
  | literal value =>
    apply OnlyGives.of_ok
    cases value with
    | boolean _ => exact readable.elim
    | _ => rfl
  | binary op _ _ =>
    rw [evaluateAt]
    exact .bind fun left => .bind fun right => (isComputed_arithmetic op left right).onlyGives
  | negate _ =>
    rw [evaluateAt]
    exact .bind fun v => (isComputed_negate v).onlyGives
  | query _ | asterisk _ => exact .of_error _
  | count _ _ =>
    rw [evaluateAt]
    apply OnlyGives.bind
    rintro (_ | _)
    · exact .of_ok rfl
    · exact .bind fun _ => (isComputed_tallyValue _ _).onlyGives
  | classTag _ =>
    rw [evaluateAt]
    apply OnlyGives.bind
    rintro (_ | _)
    · exact .of_ok rfl
    · exact .bind fun _ => .of_ok rfl

/-- What holds at the root of a store is true there. -/
theorem evaluate_of_holds {store : Store} (holds : store.holds e = .ok true) :
    store.evaluate e = .ok (.boolean true) := by
  rw [Store.holds, Store.condition] at holds
  cases evaluated : store.evaluate e with
  | error error =>
    rw [evaluated] at holds
    cases holds
  | ok v =>
    rw [evaluated, ok_bind] at holds
    cases v with
    | boolean b =>
      have isTrue : (some b == some true) = true := Except.ok.inj holds
      cases b with
      | true => rfl
      | false => cases isTrue
    | _ => cases holds

end Expr

/-! ## Texts -/

/-- The tree stands in an expression or a query that was read. -/
inductive Expr.IsRead (e : Expr) : Prop
  | inExpression
      {text : String}
      {whole : Expr}
      (read : parseExpression text = .ok whole)
      (has : whole.Has (fun _ => True) e)
  | inQuery
      {text : String}
      {whole : Query}
      (read : parseQuery text = .ok whole)
      (has : (Expr.query whole).Has (fun _ => True) e)

theorem Expr.IsRead.readable {e : Expr} (isRead : e.IsRead) : e.Readable := by
  cases isRead with
  | inExpression read has => exact everywhere_readable (readable_of_parseExpression read) e has
  | inQuery read has =>
    have readable : (Expr.query _).Readable := readable_of_parseQuery read
    exact everywhere_readable readable e has

/-- Only the kind of the expression decides whether its text is refused as a where clause. -/
theorem isBoolean_and_isHostTyped_of_rejected
    {text : String}
    {e : Expr}
    {error : Error}
    (read : parseExpression text = .ok e)
    (rejected : parseCondition text = .error error) :
    e.isBoolean = false ∧ e.isHostTyped = false := by
  obtain ⟨tokens, scanned, -⟩ := bind_eq_ok.mp read
  rw [parseCondition, scanned, ok_bind, read, ok_bind] at rejected
  split at rejected
  · cases rejected
  · next scalar => exact Bool.or_eq_false_iff.mp (Bool.eq_false_iff.mpr scalar)

/-- A tree that was read and is a condition by its kind is true, false or unknown wherever it has a
value; one that is no condition and whose type does not depend on the data is never a boolean. So
an expression whose text is refused as a where clause holds in no store. -/
theorem admission_sound (e : Expr) (isRead : e.IsRead) :
    (e.isBoolean = true → ∀ (store : Store) (value : Value),
      store.evaluate e = .ok value → value.isBoolean = true ∨ value.isNull = true) ∧
    (e.isBoolean = false → e.isHostTyped = false → ∀ (store : Store) (value : Value),
      store.evaluate e = .ok value → value.isBoolean = false) ∧
    ∀ (text : String) (error : Error),
      parseExpression text = .ok e → parseCondition text = .error error →
        ∀ store : Store, store.holds e ≠ .ok true := by
  refine ⟨?_, ?_, ?_⟩
  · exact fun condition store => e.onlyGives_isTruth condition store store.root
  · exact fun noCondition notHostTyped store =>
      Expr.onlyGives_isScalar isRead.readable noCondition notHostTyped store store.root
  · intro text error read rejected store holds
    obtain ⟨noCondition, notHostTyped⟩ := isBoolean_and_isHostTyped_of_rejected read rejected
    have scalar := Expr.onlyGives_isScalar isRead.readable noCondition notHostTyped store
      store.root _ (Expr.evaluate_of_holds holds)
    cases scalar

/-- One less than a count is no where clause, and holds nowhere. -/
theorem admission_sound_of_countOfReports :
    let e : Expr :=
      .binary .subtract (.count [] "Reports") (.literal (.integer ⟨.w32, 1, by decide⟩))
    parseExpression "Reports.Count - 1" = .ok e ∧
      parseCondition "Reports.Count - 1" = .error (.scalarCondition 0) ∧
      ∀ store : Store, store.holds e ≠ .ok true := by
  intro e
  have read : parseExpression "Reports.Count - 1" = .ok e := by cbv
  have rejected : parseCondition "Reports.Count - 1" = .error (.scalarCondition 0) := by cbv
  exact ⟨read, rejected, (admission_sound e (.inExpression read .refl)).2.2 _ _ read rejected⟩

end ObjectQuery

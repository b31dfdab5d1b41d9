import ObjectQuery.Proofs.Sql.Spelling
import ObjectQuery.Proofs.Text.Literals

/-!
Contract: computations that depend on the contents of literals, but not in what they do.

Whatever the contents are, such a computation fails in one way, or it always succeeds and leaves
scopes that do not depend on the contents.

Owns: `Alike` and `Uniform`, and the laws by which such computations are put together.

Does not own: which computations are uniform.
-/

namespace ObjectQuery.Sql

open Text (Strings)

/-- Outcomes that depend on contents are one and the same failure, or they are all results, which
have a property together. -/
def Alike {α : Type} (outcome : Strings → Except Error α) (good : (Strings → α) → Prop) : Prop :=
  (∃ error, ∀ strings, outcome strings = .error error) ∨
    ∃ results, (∀ strings, outcome strings = .ok (results strings)) ∧ good results

/-- From these scopes the runs of a computation that depends on contents are alike, and the scopes
that they leave do not depend on the contents and have mild names. -/
def Uniform {α : Type} (strict : Prop) (computation : Strings → Scoped α) (scopes : Scopes)
    (good : (Strings → α) → Prop) : Prop :=
  Alike (fun strings => (computation strings).run scopes) fun results =>
    ∃ values later, (∀ strings, results strings = (values strings, later)) ∧
      later.Named (IsMild strict) ∧ good values

namespace Alike

variable {α β : Type}

theorem of_ok {results : Strings → α} {good : (Strings → α) → Prop} (isGood : good results) :
    Alike (fun strings => .ok (results strings)) good :=
  .inr ⟨results, fun _ => rfl, isGood⟩

theorem of_error {good : (Strings → α) → Prop} (error : Error) :
    Alike (fun _ => .error error) good :=
  .inl ⟨error, fun _ => rfl⟩

theorem bind {first : Strings → Except Error α} {next : Strings → α → Except Error β}
    {good : (Strings → α) → Prop} {good' : (Strings → β) → Prop}
    (ofFirst : Alike first good)
    (ofNext : ∀ results, good results → Alike (fun strings => next strings (results strings)) good') :
    Alike (fun strings => first strings >>= next strings) good' := by
  rcases ofFirst with ⟨error, fails⟩ | ⟨results, succeeds, isGood⟩
  · simp only [fails, error_bind]
    exact .of_error error
  · simp only [succeeds, ok_bind]
    exact ofNext results isGood

/-- A first step that does not depend on contents. -/
theorem bind_const {first : Except Error α} {next : Strings → α → Except Error β}
    {good : (Strings → β) → Prop}
    (ofNext : ∀ value, first = .ok value → Alike (fun strings => next strings value) good) :
    Alike (fun strings => first >>= next strings) good := by
  cases first with
  | error error => exact .of_error error
  | ok value => exact ofNext value rfl

/-- The same outcomes, with contents taken from below an address. -/
theorem under {outcome : Strings → Except Error α} {good : (Strings → α) → Prop}
    (alike : Alike outcome good)
    (index : Nat)
    (ofGood : ∀ results, good results → good fun strings => results (strings.under index)) :
    Alike (fun strings => outcome (strings.under index)) good := by
  rcases alike with ⟨error, fails⟩ | ⟨results, succeeds, isGood⟩
  · exact .inl ⟨error, fun strings => fails (strings.under index)⟩
  · exact .inr ⟨_, fun strings => succeeds (strings.under index), ofGood results isGood⟩

end Alike

namespace Uniform

variable {α β : Type} {strict : Prop} {scopes : Scopes}

theorem pure {values : Strings → α} {good : (Strings → α) → Prop}
    (mild : scopes.Named (IsMild strict))
    (isGood : good values) :
    Uniform strict (fun strings => (Pure.pure (values strings) : Scoped α)) scopes good :=
  .of_ok ⟨values, scopes, fun _ => rfl, mild, isGood⟩

theorem throw {good : (Strings → α) → Prop} (error : Error) :
    Uniform strict (fun _ => (MonadExcept.throw error : Scoped α)) scopes good :=
  .of_error error

theorem bind {first : Strings → Scoped α} {next : Strings → α → Scoped β}
    {good : (Strings → α) → Prop} {good' : (Strings → β) → Prop}
    (ofFirst : Uniform strict first scopes good)
    (ofNext : ∀ (values : Strings → α) (later : Scopes), later.Named (IsMild strict) → good values →
      Uniform strict (fun strings => next strings (values strings)) later good') :
    Uniform strict (fun strings => first strings >>= next strings) scopes good' := by
  simp only [Uniform, StateT.run_bind]
  refine Alike.bind ofFirst ?_
  rintro results ⟨values, later, split, mild, isGood⟩
  simp only [split]
  exact ofNext values later mild isGood

/-- A first step that does not depend on contents. -/
theorem bind_const {first : Scoped α} {next : Strings → α → Scoped β}
    {good : (Strings → β) → Prop}
    (ofNext : ∀ value later, first.run scopes = .ok (value, later) →
      Uniform strict (fun strings => next strings value) later good) :
    Uniform strict (fun strings => first >>= next strings) scopes good := by
  simp only [Uniform, StateT.run_bind]
  exact Alike.bind_const fun result ran => ofNext result.1 result.2 ran

theorem get_bind {next : Strings → Scopes → Scoped β} {good : (Strings → β) → Prop}
    (ofNext : Uniform strict (fun strings => next strings scopes) scopes good) :
    Uniform strict (fun strings => get >>= next strings) scopes good :=
  bind_const fun value later ran => by
    obtain ⟨rfl, rfl⟩ := run_get_eq_ok.mp ran
    exact ofNext

theorem lift_bind_const {step : Except Error α} {next : Strings → α → Scoped β}
    {good : (Strings → β) → Prop}
    (ofNext : ∀ value, step = .ok value →
      Uniform strict (fun strings => next strings value) scopes good) :
    Uniform strict (fun strings => liftM step >>= next strings) scopes good :=
  bind_const fun value later lifted => by
    obtain ⟨ran, rfl⟩ := run_lift_eq_ok.mp lifted
    exact ofNext value ran

theorem lift_bind {step : Strings → Except Error α} {next : Strings → α → Scoped β}
    {good : (Strings → α) → Prop} {good' : (Strings → β) → Prop}
    (ofStep : Alike step good)
    (ofNext : ∀ values, good values →
      Uniform strict (fun strings => next strings (values strings)) scopes good') :
    Uniform strict (fun strings => liftM (step strings) >>= next strings) scopes good' := by
  rcases ofStep with ⟨error, fails⟩ | ⟨results, succeeds, isGood⟩
  · simp only [fails]
    exact .of_error error
  · simp only [succeeds]
    exact ofNext results isGood

/-- One more scope, whose joins after the run do not depend on the contents either. -/
theorem within {scope : Scope} {body : Strings → Scoped α} {good : (Strings → α) → Prop}
    (mild : scopes.Named (IsMild strict))
    (ofScope : scope.Named (IsMild strict))
    (ofBody : Scopes.Named (IsMild strict) (scope :: scopes) →
      Uniform strict body (scope :: scopes) good) :
    Uniform strict (fun strings => Sql.within scope (body strings)) scopes fun pairs =>
      ∃ inner values, (∀ strings, pairs strings = (inner, values strings)) ∧
        inner.Named (IsMild strict) ∧ good values := by
  refine bind_const fun _ opened ran => ?_
  obtain ⟨-, rfl⟩ := Prod.mk.inj (Except.ok.inj ran)
  refine (ofBody (mild.cons ofScope)).bind fun values later mild isGood => .get_bind ?_
  cases later with
  | nil => exact .throw _
  | cons inner outer =>
    obtain ⟨ofInner, ofOuter⟩ := List.forall_mem_cons.mp mild
    refine bind_const fun _ closed ran => ?_
    obtain ⟨-, rfl⟩ := Prod.mk.inj (Except.ok.inj ran)
    exact .pure ofOuter ⟨inner, values, fun _ => rfl, ofInner, isGood⟩

/-- The same computation, with contents taken from below an address. -/
theorem under {computation : Strings → Scoped α} {good : (Strings → α) → Prop}
    (uniform : Uniform strict computation scopes good)
    (index : Nat)
    (ofGood : ∀ values, good values → good fun strings => values (strings.under index)) :
    Uniform strict (fun strings => computation (strings.under index)) scopes good := by
  refine Alike.under uniform index ?_
  rintro results ⟨values, later, split, mild, isGood⟩
  exact ⟨_, later, fun strings => split (strings.under index), mild, ofGood values isGood⟩

end Uniform

end ObjectQuery.Sql

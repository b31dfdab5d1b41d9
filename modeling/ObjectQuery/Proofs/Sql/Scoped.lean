import ObjectQuery.Sql.Scope
import ObjectQuery.Proofs.Success

/-!
Contract: steps of a computation that changes the scopes and may fail.

Owns: the laws by which a successful run is opened, what a run with one more scope does, and what a
change of one scope leaves true of all.
-/

namespace ObjectQuery.Sql

variable {α β : Type} {scopes scopes' : Scopes}

/-- A step with a continuation succeeds when both do, each in the scopes that it finds. -/
@[simp]
theorem run_bind_eq_ok {first : Scoped α} {next : α → Scoped β} {result : β} :
    (first >>= next).run scopes = .ok (result, scopes') ↔
      ∃ value between, first.run scopes = .ok (value, between) ∧
        (next value).run between = .ok (result, scopes') := by
  simp only [StateT.run_bind, bind_eq_ok, Prod.exists]

@[simp]
theorem run_pure_eq_ok {value result : α} :
    (pure value : Scoped α).run scopes = .ok (result, scopes') ↔
      value = result ∧ scopes = scopes' := by
  simp

@[simp]
theorem run_lift_eq_ok {step : Except Error α} {result : α} :
    (liftM step : Scoped α).run scopes = .ok (result, scopes') ↔
      step = .ok result ∧ scopes = scopes' := by
  cases step <;> simp

@[simp]
theorem run_get_eq_ok {result : Scopes} :
    (get : Scoped Scopes).run scopes = .ok (result, scopes') ↔
      scopes = result ∧ scopes = scopes' := by
  simp

@[simp]
theorem run_throw_ne_ok {error : Error} {result : α × Scopes} :
    (throw error : Scoped α).run scopes ≠ .ok result := by
  rintro ⟨⟩

/-- A computation that runs in one more scope takes that scope back from the front. -/
theorem run_within_eq_ok {scope inner : Scope} {body : Scoped α} {result : α} :
    (within scope body).run scopes = .ok ((inner, result), scopes') ↔
      body.run (scope :: scopes) = .ok (result, inner :: scopes') := by
  rw [within, StateT.run_bind, StateT.run_modify, pure_eq_ok, ok_bind, run_bind_eq_ok]
  constructor
  · rintro ⟨value, between, ran, taken⟩
    rw [StateT.run_bind, StateT.run_get, pure_eq_ok, ok_bind] at taken
    cases between with
    | nil => exact absurd taken run_throw_ne_ok
    | cons first outer =>
      rw [StateT.run_bind, StateT.run_set, pure_eq_ok, ok_bind, run_pure_eq_ok] at taken
      obtain ⟨pair, rfl⟩ := taken
      obtain ⟨rfl, rfl⟩ := Prod.mk.inj pair
      exact ran
  · intro ran
    exact ⟨result, inner :: scopes', ran, rfl⟩

/-- What holds of all scopes holds of them when one is changed and keeps it. -/
theorem Scopes.forall_mem_modify {holds : Scope → Prop} {level : Nat} {change : Scope → Scope}
    (each : ∀ scope ∈ scopes, holds scope)
    (kept : ∀ scope, holds scope → holds (change scope)) :
    ∀ scope ∈ scopes.modify level change, holds scope := by
  intro scope member
  obtain ⟨place, inside, rfl⟩ := List.mem_iff_getElem.mp member
  rw [List.length_modify] at inside
  have old := each _ (List.getElem_mem inside)
  rw [List.getElem_modify]
  split
  · exact kept _ old
  · exact old

end ObjectQuery.Sql

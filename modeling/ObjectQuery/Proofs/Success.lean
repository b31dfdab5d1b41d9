/-!
Contract: steps of a computation that may fail.

A chain of steps succeeds when each of them does, and then every step has a result.

Owns: the laws by which a chain is opened.
-/

namespace ObjectQuery

variable {ε α β : Type}

@[simp]
theorem ok_bind (value : α) (next : α → Except ε β) :
    ((Except.ok value : Except ε α) >>= next) = next value :=
  rfl

@[simp]
theorem error_bind (error : ε) (next : α → Except ε β) :
    ((Except.error error : Except ε α) >>= next) = .error error :=
  rfl

@[simp]
theorem pure_eq_ok (value : α) : (pure value : Except ε α) = .ok value :=
  rfl

/-- A step with a continuation succeeds when both do. -/
theorem bind_eq_ok {first : Except ε α} {next : α → Except ε β} {result : β} :
    (first >>= next) = .ok result ↔ ∃ value, first = .ok value ∧ next value = .ok result := by
  cases first with
  | error error => simp
  | ok value => simp

/-- What is known to succeed has a result. -/
theorem exists_eq_ok {outcome : Except ε α} (succeeds : outcome.isOk = true) :
    ∃ result, outcome = .ok result := by
  cases outcome with
  | error error => cases succeeds
  | ok value => exact ⟨value, rfl⟩

end ObjectQuery

import Mathlib.Tactic.Common

/-!
# Outcomes of computations that may fail

A computation in steps succeeds when every step does, and fails with the failure of the first step
that does not. Renaming the failures keeps the results. These equivalences take a chain of steps
apart without looking into any of them.

## Main results

* `Outcome.bind_eq_ok_iff`, `Outcome.bind_eq_error_iff` — one step and the rest
* `Outcome.map_eq_ok_iff` — a step with another result
* `Outcome.mapError_eq_ok_iff`, `Outcome.mapError_eq_error_iff` — a step with renamed failures
-/

namespace KeyCustody.Outcome

variable {ε δ α β : Type} {x : Except ε α}

theorem bind_eq_ok_iff {f : α → Except ε β} {b : β} :
    (x >>= f) = .ok b ↔ ∃ a, x = .ok a ∧ f a = .ok b := by
  cases x with
  | error fault => simp [bind, Except.bind]
  | ok a => simp [bind, Except.bind]

theorem bind_eq_error_iff {f : α → Except ε β} {fault : ε} :
    (x >>= f) = .error fault ↔ x = .error fault ∨ ∃ a, x = .ok a ∧ f a = .error fault := by
  cases x with
  | error fault => simp [bind, Except.bind]
  | ok a => simp [bind, Except.bind]

theorem map_eq_ok_iff {f : α → β} {b : β} : x.map f = .ok b ↔ ∃ a, x = .ok a ∧ f a = b := by
  cases x with
  | error fault => simp [Except.map]
  | ok a => simp [Except.map]

theorem mapError_eq_ok_iff {rename : ε → δ} {a : α} :
    x.mapError rename = .ok a ↔ x = .ok a := by
  cases x with
  | error fault => simp [Except.mapError]
  | ok a => simp [Except.mapError]

theorem mapError_eq_error_iff {rename : ε → δ} {fault : δ} :
    x.mapError rename = .error fault ↔ ∃ cause, x = .error cause ∧ fault = rename cause := by
  cases x with
  | error cause => simp [Except.mapError, eq_comm]
  | ok a => simp [Except.mapError]

/-- Renaming the failures of two steps is renaming those of each. -/
theorem mapError_bind (rename : ε → δ) (x : Except ε α) (f : α → Except ε β) :
    (x >>= f).mapError rename = x.mapError rename >>= fun a => (f a).mapError rename := by
  cases x <;> rfl

end KeyCustody.Outcome

/-!
Results, opened where they are known to have succeeded, or to have failed.

A result that is passed on, changed or blamed on something succeeds exactly if what it is made of
does, and fails with the first failure in it.  These equivalences take a computation apart, one step
at a time.
-/

namespace FeatureFlags

variable {ε ε' α β : Type} {result : Except ε α}

theorem bind_eq_ok_iff {next : α → Except ε β} {b : β} :
    result.bind next = .ok b ↔ ∃ a, result = .ok a ∧ next a = .ok b := by
  cases result <;> simp [Except.bind]

theorem map_eq_ok_iff {f : α → β} {b : β} :
    result.map f = .ok b ↔ ∃ a, result = .ok a ∧ f a = b := by
  cases result <;> simp [Except.map]

theorem mapError_eq_ok_iff {f : ε → ε'} {a : α} :
    result.mapError f = .ok a ↔ result = .ok a := by
  constructor
  · intro h
    cases result with
    | error e => cases h
    | ok value =>
      obtain rfl := Except.ok.inj h
      rfl
  · rintro rfl
    rfl

theorem bind_eq_error_iff {next : α → Except ε β} {e : ε} :
    result.bind next = .error e ↔
      result = .error e ∨ ∃ a, result = .ok a ∧ next a = .error e := by
  cases result <;> simp [Except.bind]

theorem map_eq_error_iff {f : α → β} {e : ε} : result.map f = .error e ↔ result = .error e := by
  cases result <;> simp [Except.map]

theorem mapError_eq_error_iff {f : ε → ε'} {e : ε'} :
    result.mapError f = .error e ↔ ∃ cause, result = .error cause ∧ f cause = e := by
  constructor
  · intro h
    cases result with
    | error cause => exact ⟨cause, rfl, Except.error.inj h⟩
    | ok value => cases h
  · rintro ⟨cause, rfl, rfl⟩
    rfl

end FeatureFlags

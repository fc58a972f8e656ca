/-!
# Results

Most functions of the library that can fail hand on the results of others with `Except.map`. An
error goes through unchanged and a value is mapped, which is what is needed to go back from a result
to where it came from.
-/

namespace ExScript

variable {ε α β : Type} {x : Except ε α} {f : α → β}

/-- A result that was mapped is the image of one. -/
theorem exists_of_map_eq_ok {y : β} (h : x.map f = .ok y) : ∃ a, x = .ok a ∧ f a = y := by
  cases x with
  | error e => cases h
  | ok a =>
    cases h
    exact ⟨a, rfl, rfl⟩

/-- An error behind a map was there before. -/
theorem eq_error_of_map {e : ε} (h : x.map f = .error e) : x = .error e := by
  cases x with
  | error e' =>
    cases h
    rfl
  | ok a => cases h

/-- A result that is no error is a value. -/
theorem exists_eq_ok_of_isOk (h : x.isOk) : ∃ a, x = .ok a := by
  cases x with
  | error e => cases h
  | ok a => exact ⟨a, rfl⟩

end ExScript

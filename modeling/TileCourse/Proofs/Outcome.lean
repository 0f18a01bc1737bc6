/-!
# Outcomes made of others

When an outcome that is made out of another one succeeds, and when it fails.
-/

namespace TileCourse

variable {ε ε' α β : Type} {result : Except ε α} {b : β}

/-- A mapped outcome is a success exactly if the outcome is one. -/
theorem map_eq_ok_iff {f : α → β} : result.map f = .ok b ↔ ∃ a, result = .ok a ∧ f a = b := by
  cases result <;> simp [Except.map]

/-- A mapped outcome fails exactly as the outcome does. -/
theorem map_eq_error_iff {f : α → β} {e : ε} : result.map f = .error e ↔ result = .error e := by
  cases result <;> simp [Except.map]

/-- Two computations succeed one after the other exactly if both of them do. -/
theorem bind_eq_ok_iff {f : α → Except ε β} :
    (result >>= f) = .ok b ↔ ∃ a, result = .ok a ∧ f a = .ok b := by
  cases result <;> simp [bind, Except.bind]

/-- Mapping errors leaves a success as it is. -/
@[simp] theorem map_error_ok (f : ε → ε') (a : α) :
    (Except.ok a : Except ε α).mapError f = .ok a := rfl

/-- Mapping errors maps the error of a failure. -/
@[simp] theorem map_error_error (f : ε → ε') (e : ε) :
    (Except.error e : Except ε α).mapError f = .error (f e) := rfl

/-- Mapping errors makes no success out of a failure. -/
theorem map_error_eq_ok_iff {f : ε → ε'} {a : α} : result.mapError f = .ok a ↔ result = .ok a := by
  cases result <;> simp

end TileCourse

/-!
# Outcomes

How outcomes in a row succeed and fail, and how it is decided what a given outcome is.
-/

namespace CodeOutline

variable {ε ε' α β : Type}

/-- Two checks in a row answer exactly where both do. -/
theorem andThen_eq_ok {first : Except ε α} {second : α → Except ε β} {b : β} :
    (first >>= second) = .ok b ↔ ∃ a, first = .ok a ∧ second a = .ok b := by
  cases first <;> simp [bind, Except.bind]

theorem andThen_eq_error {first : Except ε α} {second : α → Except ε β} {e : ε} :
    (first >>= second) = .error e ↔
      first = .error e ∨ ∃ a, first = .ok a ∧ second a = .error e := by
  cases first <;> simp [bind, Except.bind]

theorem mapError_ok (a : α) (rename : ε → ε') : (Except.ok a).mapError rename = .ok a := rfl

theorem mapError_error (e : ε) (rename : ε → ε') :
    (Except.error e : Except ε α).mapError rename = .error (rename e) := rfl

/-- A stage that gives its faults another name succeeds as before. -/
theorem mapError_eq_ok {answer : Except ε α} {rename : ε → ε'} {a : α} :
    answer.mapError rename = .ok a ↔ answer = .ok a := by
  cases answer with
  | error fault => exact ⟨nofun, nofun⟩
  | ok b => simp only [mapError_ok, Except.ok.injEq]

theorem mapError_eq_error {answer : Except ε α} {rename : ε → ε'} {e : ε'} :
    answer.mapError rename = .error e ↔ ∃ fault, answer = .error fault ∧ rename fault = e := by
  cases answer with
  | error fault => simp [mapError_error]
  | ok b => simp [mapError_ok]

theorem map_eq_ok {answer : Except ε α} {f : α → β} {b : β} :
    answer.map f = .ok b ↔ ∃ a, answer = .ok a ∧ f a = b := by
  cases answer <;> simp [Except.map]

theorem map_eq_error {answer : Except ε α} {f : α → β} {e : ε} :
    answer.map f = .error e ↔ answer = .error e := by
  cases answer <;> simp [Except.map]

theorem eq_ok_of_toOption {answer : Except ε α} {a : α} (h : answer.toOption = some a) :
    answer = .ok a := by
  cases answer with
  | error e => cases h
  | ok b =>
    cases h
    rfl

/-- The fault of an answer that is none. -/
def faultOf? : Except ε α → Option ε
  | .error e => some e
  | .ok _ => none

theorem eq_error_of_faultOf? {answer : Except ε α} {e : ε} (h : faultOf? answer = some e) :
    answer = .error e := by
  cases answer with
  | ok b => cases h
  | error f =>
    cases h
    rfl

end CodeOutline

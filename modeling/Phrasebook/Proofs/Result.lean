/-!
# Results

When an operation that can fail succeeds, and when it does not fail in a certain way: one that goes
on with the result of another, and one that rewords its errors.
-/

namespace Phrasebook

theorem bind_eq_ok_iff {ε α β : Type} {value : Except ε α} {next : α → Except ε β} {result : β} :
    value >>= next = .ok result ↔ ∃ a, value = .ok a ∧ next a = .ok result := by
  cases value with
  | error fault =>
    constructor
    · intro h; cases h
    · rintro ⟨_, h, -⟩; cases h
  | ok a =>
    constructor
    · intro h; exact ⟨a, rfl, h⟩
    · rintro ⟨_, h, hnext⟩; cases h; exact hnext

theorem mapError_eq_ok_iff {ε ε' α : Type} {value : Except ε α} {change : ε → ε'} {result : α} :
    value.mapError change = .ok result ↔ value = .ok result := by
  cases value with
  | error fault => constructor <;> intro h <;> cases h
  | ok a => constructor <;> intro h <;> cases h <;> rfl

theorem exists_of_isOk {ε α : Type} {value : Except ε α} (h : value.isOk = true) :
    ∃ a, value = .ok a := by
  cases value with
  | error fault => cases h
  | ok a => exact ⟨a, rfl⟩

/-- One operation after the other fails in no way in which neither of them does. -/
theorem bind_ne_error {ε α β : Type} {value : Except ε α} {next : α → Except ε β} {fault : ε}
    (hvalue : value ≠ .error fault) (hnext : ∀ a, next a ≠ .error fault) :
    value >>= next ≠ .error fault := by
  cases value with
  | error other =>
    intro h
    cases h
    exact hvalue rfl
  | ok a => exact hnext a

end Phrasebook

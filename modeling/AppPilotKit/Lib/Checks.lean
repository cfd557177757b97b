import Mathlib

/-! # Sequences of checks

When a computation in `Except` succeeds.
-/

namespace Checks

variable {ε α β : Type}

theorem bind_ok {x : Except ε α} {f : α → Except ε β} {result : β} :
    (x >>= f) = .ok result ↔ ∃ value, x = .ok value ∧ f value = .ok result := by
  cases x with
  | error e =>
      constructor
      · intro h
        cases h
      · rintro ⟨value, h, -⟩
        cases h
  | ok value =>
      constructor
      · exact fun h => ⟨value, rfl, h⟩
      · rintro ⟨other, h, done⟩
        cases h
        exact done

theorem bind_error {x : Except ε α} {f : α → Except ε β} {e : ε} :
    (x >>= f) = .error e ↔ x = .error e ∨ ∃ value, x = .ok value ∧ f value = .error e := by
  cases x with
  | error other =>
      constructor
      · intro h
        cases h
        exact .inl rfl
      · rintro (h | ⟨value, h, -⟩)
        · cases h
          rfl
        · cases h
  | ok value =>
      constructor
      · exact fun h => .inr ⟨value, rfl, h⟩
      · rintro (h | ⟨other, h, failed⟩)
        · cases h
        · cases h
          exact failed

theorem and_then_ok {x : Except ε PUnit} {y : Except ε β} {result : β} :
    (do x; y) = .ok result ↔ x = .ok ⟨⟩ ∧ y = .ok result := by
  rw [bind_ok]
  exact ⟨fun ⟨_, done, h⟩ => ⟨done, h⟩, fun ⟨done, h⟩ => ⟨⟨⟩, done, h⟩⟩

theorem map_ok {x : Except ε α} {f : α → β} {result : β} :
    x.map f = .ok result ↔ ∃ value, x = .ok value ∧ f value = result := by
  cases x with
  | error e =>
      constructor
      · intro h
        cases h
      · rintro ⟨value, h, -⟩
        cases h
  | ok value => simp [Except.map]

theorem guard_ok {condition : Prop} [Decidable condition] {e : ε} :
    (if condition then .ok ⟨⟩ else .error e : Except ε PUnit) = .ok ⟨⟩ ↔ condition := by
  split <;> simp_all

end Checks

import Mathlib.Data.List.Basic
import Mathlib.Tactic

/-!
# Results that may be errors

A chain of fallible steps that succeeds has succeeded at every step.
-/

namespace Buzz

theorem except_bind_ok {ε α β : Type} {x : Except ε α} {f : α → Except ε β} {b : β}
    (h : (x >>= f) = .ok b) : ∃ a, x = .ok a ∧ f a = .ok b := by
  cases x with
  | error e => cases h
  | ok a => exact ⟨a, rfl, h⟩

theorem except_bind_ok_iff {ε α β : Type} {x : Except ε α} {f : α → Except ε β} {b : β} :
    (x >>= f) = .ok b ↔ ∃ a, x = .ok a ∧ f a = .ok b := by
  constructor
  · exact except_bind_ok
  · rintro ⟨a, rfl, h⟩
    exact h

theorem throw_bind {ε α β : Type} {e : ε} {f : α → Except ε β} : (throw e >>= f) = throw e :=
  rfl

theorem throw_ok_iff {ε α : Type} {e : ε} {a : α} : (throw e : Except ε α) = .ok a ↔ False := by
  simp [throw, throwThe, MonadExceptOf.throw]

/-- A check that throws, and what follows it. -/
theorem guard_ok_iff {ε β : Type} {c : Prop} [Decidable c] {e : ε} {k : Except ε β} {b : β} :
    (if c then throw e else k) = .ok b ↔ ¬c ∧ k = .ok b := by
  by_cases h : c
  · simp [h, throw_ok_iff]
  · simp [h]

theorem mapError_ok {ε ε' α : Type} {x : Except ε α} {f : ε → ε'} {a : α}
    (h : x.mapError f = .ok a) : x = .ok a := by
  cases x with
  | error e => cases h
  | ok b => exact congrArg Except.ok (Except.ok.inj h)

theorem except_map_ok {ε α β : Type} {x : Except ε α} {f : α → β} {b : β}
    (h : x.map f = .ok b) : ∃ a, x = .ok a ∧ f a = b := by
  cases x with
  | error e => cases h
  | ok a => exact ⟨a, rfl, Except.ok.inj h⟩

end Buzz

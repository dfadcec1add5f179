import Mathlib.Tactic.Common

/-!
# Results that are values

A chain of calls that may fail gives a value only when each of its links does.
-/

namespace Narrative.Except

theorem exists_of_bind {ε α β : Type} {x : Except ε α} {f : α → Except ε β} {b : β}
    (h : (x >>= f) = .ok b) : ∃ a, x = .ok a ∧ f a = .ok b := by
  cases x with
  | error e => exact absurd h nofun
  | ok a => exact ⟨a, rfl, h⟩

theorem exists_of_map {ε α β : Type} {x : Except ε α} {f : α → β} {b : β}
    (h : x.map f = .ok b) : ∃ a, x = .ok a ∧ f a = b := by
  cases x with
  | error e => exact absurd h nofun
  | ok a => exact ⟨a, rfl, Except.ok.inj h⟩

theorem of_map_error {ε α β : Type} {x : Except ε α} {f : α → β} {e : ε}
    (h : x.map f = .error e) : x = .error e := by
  cases x with
  | error made => exact congrArg Except.error (Except.error.inj h)
  | ok a => exact absurd h nofun

theorem of_mapError {ε ε' α : Type} {x : Except ε α} {f : ε → ε'} {a : α}
    (h : x.mapError f = .ok a) : x = .ok a := by
  cases x with
  | error e => exact absurd h nofun
  | ok made => exact congrArg Except.ok (Except.ok.inj h)

/-- What comes behind a check goes on when the check passes. -/
theorem of_guard {ε α β : Type} {c : Prop} [Decidable c] {e : ε} {f : α → Except ε β}
    {x : Except ε β} {b : β} (h : (if c then throw e >>= f else x) = .ok b) : x = .ok b := by
  split at h
  · exact absurd h nofun
  · exact h

theorem not_of_guard {ε α β : Type} {c : Prop} [Decidable c] {e : ε} {f : α → Except ε β}
    {x : Except ε β} {b : β} (h : (if c then throw e >>= f else x) = .ok b) : ¬c := by
  split at h
  · exact absurd h nofun
  · assumption

theorem exists_of_choice {ε α β : Type} {c : Prop} [Decidable c] {x y : Except ε α}
    {f : α → Except ε β} {b : β} (h : (if c then x >>= f else y >>= f) = .ok b) :
    ∃ a, f a = .ok b := by
  split at h
  · obtain ⟨a, -, hf⟩ := exists_of_bind h
    exact ⟨a, hf⟩
  · obtain ⟨a, -, hf⟩ := exists_of_bind h
    exact ⟨a, hf⟩

end Narrative.Except

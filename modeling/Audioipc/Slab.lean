import Mathlib.Logic.Function.Basic

/-!
# Slabs

Tables with reused keys, as far as their users rely on them: a key has at
most one entry, and which vacant key a new entry gets is up to the slab.
-/

/-- `slab::Slab`. -/
abbrev Slab (α : Type) := Nat → Option α

namespace Slab

variable {α : Type} {s : Slab α} {key key' : Nat} {a a' : α}

/-- What is in a slab after an insertion is new or was there before. -/
theorem insert_cases (h : Function.update s key (some a) key' = some a') :
    (key' = key ∧ a' = a) ∨ (key' ≠ key ∧ s key' = some a') := by
  by_cases hne : key' = key
  · subst hne
    rw [Function.update_self] at h
    exact Or.inl ⟨rfl, (Option.some.inj h).symm⟩
  · rw [Function.update_of_ne hne] at h
    exact Or.inr ⟨hne, h⟩

/-- What is in a slab after a removal was there before. -/
theorem of_remove (h : Function.update s key none key' = some a) :
    key' ≠ key ∧ s key' = some a := by
  by_cases hne : key' = key
  · subst hne
    rw [Function.update_self] at h
    cases h
  · exact ⟨hne, by rwa [Function.update_of_ne hne] at h⟩

end Slab

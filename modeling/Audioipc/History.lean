import Mathlib.Data.List.Nodup

/-!
# Histories of a cell

The writes to a cell, each under a name of its own, the newest first. What is in
the cell is what the head has written; a write that has been replaced is never
the head again, whatever is written later.
-/

namespace History

variable {ι : Type} {h h' : List ι} {j k : ι}

/-- `j` is older than `k`. -/
def Replaced (h : List ι) (k j : ι) : Prop := ∃ newer older, h = newer ++ k :: older ∧ j ∈ older

theorem Replaced.mono (hr : Replaced h k j) (hle : h <:+ h') : Replaced h' k j := by
  obtain ⟨newer, older, rfl, hj⟩ := hr
  obtain ⟨newest, rfl⟩ := hle
  exact ⟨newest ++ newer, older, by rw [List.append_assoc], hj⟩

theorem replaced_cons {i : ι} : Replaced (i :: h) k j ↔ (k = i ∧ j ∈ h) ∨ Replaced h k j := by
  constructor
  · rintro ⟨newer, older, heq, hj⟩
    cases newer with
    | nil =>
        obtain ⟨rfl, rfl⟩ := List.cons.inj heq
        exact Or.inl ⟨rfl, hj⟩
    | cons i' newer =>
        obtain ⟨-, rfl⟩ := List.cons.inj heq
        exact Or.inr ⟨newer, older, rfl, hj⟩
  · rintro (⟨rfl, hj⟩ | hr)
    · exact ⟨[], h, rfl, hj⟩
    · exact hr.mono (List.suffix_cons ..)

instance decidableReplaced [DecidableEq ι] (k j : ι) : ∀ h : List ι, Decidable (Replaced h k j)
  | [] => .isFalse fun ⟨newer, _, heq, _⟩ => by cases newer <;> cases heq
  | i :: h =>
      haveI := decidableReplaced k j h
      decidable_of_iff ((k = i ∧ j ∈ h) ∨ Replaced h k j) replaced_cons.symm

theorem Replaced.ne_head (hr : Replaced h k j) (hnodup : h.Nodup) : h.head? ≠ some j := by
  obtain ⟨newer, older, rfl, hj⟩ := hr
  cases newer with
  | nil =>
      intro heq
      obtain rfl := Option.some.inj heq
      exact (List.nodup_cons.mp hnodup).1 hj
  | cons i newer =>
      intro heq
      obtain rfl := Option.some.inj heq
      exact (List.nodup_cons.mp hnodup).1
        (List.mem_append_right _ (List.mem_cons_of_mem _ hj))

end History

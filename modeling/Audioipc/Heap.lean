import Mathlib.Algebra.Order.Group.Multiset

/-!
# A heap and the owners of its blocks

A heap gives the block at each address that has one. `Owned h s`: the blocks
of the heap are those of the multiset `s`, and no address is in it twice. A
program that keeps track of who owns what proves `Owned` of the sum of what its
owners have: to allocate adds a block to the sum, and what is in the sum can be
read and freed, once.
-/

/-- The block at each address that has one. -/
abbrev Heap (β : Type) := Nat → Option β

namespace Heap

variable {β : Type} {h : Heap β} {s : Multiset (Nat × β)} {p : Nat} {b : β}

def empty : Heap β := fun _ => none

def alloc (h : Heap β) (p : Nat) (b : β) : Heap β := fun q => if q = p then some b else h q

def free (h : Heap β) (p : Nat) : Heap β := fun q => if q = p then none else h q

/-- The blocks of the heap are those of `s`, each once. -/
structure Owned (h : Heap β) (s : Multiset (Nat × β)) : Prop where
  nodup : (s.map Prod.fst).Nodup
  get : ∀ p b, h p = some b ↔ (p, b) ∈ s

theorem owned_empty : Owned (empty : Heap β) 0 where
  nodup := Multiset.nodup_zero
  get p b := ⟨(fun h => by cases h), fun h => absurd h (Multiset.notMem_zero _)⟩

theorem Owned.alloc (ho : Owned h s) (hp : h p = none) : Owned (h.alloc p b) ((p, b) ::ₘ s) where
  nodup := by
    rw [Multiset.map_cons, Multiset.nodup_cons]
    refine ⟨fun hmem => ?_, ho.nodup⟩
    obtain ⟨⟨q, c⟩, hqc, hq⟩ := Multiset.mem_map.mp hmem
    obtain rfl : q = p := hq
    rw [(ho.get q c).mpr hqc] at hp
    cases hp
  get q c := by
    unfold Heap.alloc
    rw [Multiset.mem_cons]
    split
    · rename_i hq
      subst hq
      constructor
      · intro hc
        exact Or.inl (by rw [Option.some.inj hc])
      · rintro (hc | hc)
        · rw [(Prod.mk.inj hc).2]
        · rw [(ho.get q c).mpr hc] at hp
          cases hp
    · rename_i hq
      rw [ho.get q c]
      exact ⟨Or.inr, fun hc => hc.resolve_left fun heq => hq (Prod.mk.inj heq).1⟩

/-- What is owned can be read. -/
theorem Owned.read (ho : Owned h ((p, b) ::ₘ s)) : h p = some b :=
  (ho.get p b).mpr (Multiset.mem_cons_self _ _)

/-- What is owned can be freed, by its owner. -/
theorem Owned.free (ho : Owned h ((p, b) ::ₘ s)) : Owned (h.free p) s := by
  have hnodup := ho.nodup
  rw [Multiset.map_cons, Multiset.nodup_cons] at hnodup
  refine ⟨hnodup.2, fun q c => ?_⟩
  unfold Heap.free
  split
  · rename_i hq
    subst hq
    refine ⟨(fun hc => by cases hc), fun hc => ?_⟩
    exact absurd (Multiset.mem_map.mpr ⟨_, hc, rfl⟩) hnodup.1
  · rename_i hq
    rw [ho.get q c, Multiset.mem_cons]
    exact ⟨fun hc => hc.resolve_left fun heq => hq (Prod.mk.inj heq).1, Or.inr⟩

end Heap

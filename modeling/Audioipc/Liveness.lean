import Mathlib.Order.WellFounded
import Audioipc.Lts

/-!
# What a system comes to

`Inevitable step G P s`: from `s`, however the actions that meet `G` are
ordered, the system comes to a state with `P` after finitely many of them,
and can go on with one until then. The rule is the usual one for total
correctness: a measure in a well-founded order that every such action
brings down, and an action for every state that does not have `P` yet.
-/

namespace Lts

variable {σ ι μ : Type} {step : σ → ι → Option σ} {G : σ → ι → Prop} {P : σ → Prop}

inductive Inevitable (step : σ → ι → Option σ) (G : σ → ι → Prop) (P : σ → Prop) : σ → Prop
  | now {s : σ} (h : P s) : Inevitable step G P s
  | later {s : σ} (hsome : ∃ a t, G s a ∧ step s a = some t)
      (hall : ∀ a t, G s a → step s a = some t → Inevitable step G P t) :
      Inevitable step G P s

/-- The rule for total correctness. -/
theorem inevitable_of_measure {r : μ → μ → Prop} (hwf : WellFounded r) {m : σ → μ} {I : σ → Prop}
    (hinv : ∀ s a t, I s → G s a → step s a = some t → I t)
    (hdown : ∀ s a t, I s → G s a → step s a = some t → r (m t) (m s))
    (hgoes : ∀ s, I s → ¬ P s → ∃ a t, G s a ∧ step s a = some t) {s : σ} (hs : I s) :
    Inevitable step G P s := by
  suffices h : ∀ (x : μ) (s : σ), m s = x → I s → Inevitable step G P s from h (m s) s rfl hs
  intro x
  induction x using hwf.induction with
  | _ x ih =>
      rintro s rfl hs
      by_cases hP : P s
      · exact .now hP
      · exact .later (hgoes s hs hP) fun a t hG ht =>
          ih (m t) (hdown s a t hs hG ht) t rfl (hinv s a t hs hG ht)

end Lts

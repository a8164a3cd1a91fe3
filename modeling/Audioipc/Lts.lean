/-!
# Runs of an executable transition system

A system is a partial step function `step : σ → ι → Option σ`: the action
carries every choice that the scheduler or the environment makes, and
`none` means the action is not enabled. Everything here is generic in the
state and the action; a development instantiates `step`, proves what one
step preserves, and reads the same fact off a whole run from
`runs_invariant` (or `runs_within_invariant` when the steps of the run are
known to meet a side condition).
-/

namespace Lts

variable {σ τ ι κ : Type}

/-- The state after performing a list of actions, if all are enabled. -/
def runs (step : σ → ι → Option σ) : σ → List ι → Option σ
  | s, [] => some s
  | s, a :: as => (step s a).bind fun t => runs step t as

@[simp] theorem runs_nil (step : σ → ι → Option σ) (s : σ) :
    runs step s [] = some s := rfl

theorem runs_cons (step : σ → ι → Option σ) (s : σ) (a : ι) (as : List ι) :
    runs step s (a :: as) = (step s a).bind fun t => runs step t as := rfl

theorem runs_cons_eq_some {step : σ → ι → Option σ} {s u : σ} {a : ι} {as : List ι} :
    runs step s (a :: as) = some u ↔
      ∃ t, step s a = some t ∧ runs step t as = some u := by
  simp [runs_cons, Option.bind_eq_some_iff]

theorem runs_append {step : σ → ι → Option σ} {as bs : List ι} {s t u : σ}
    (h₁ : runs step s as = some t) (h₂ : runs step t bs = some u) :
    runs step s (as ++ bs) = some u := by
  induction as generalizing s with
  | nil =>
      obtain rfl := Option.some.inj h₁
      exact h₂
  | cons a as ih =>
      obtain ⟨t', hstep, hrest⟩ := runs_cons_eq_some.mp h₁
      exact runs_cons_eq_some.mpr ⟨t', hstep, ih hrest⟩

/-- Every action of the run, taken from the state it is taken in, meets `G`. -/
def Within (step : σ → ι → Option σ) (G : σ → ι → Prop) : σ → List ι → Prop
  | _, [] => True
  | s, a :: as => G s a ∧ ∀ t, step s a = some t → Within step G t as

instance decidableWithin {step : σ → ι → Option σ} {G : σ → ι → Prop}
    [∀ s a, Decidable (G s a)] : ∀ s as, Decidable (Within step G s as)
  | _, [] => inferInstanceAs (Decidable True)
  | s, a :: as =>
      haveI : ∀ t, Decidable (Within step G t as) := fun t => decidableWithin t as
      inferInstanceAs (Decidable (G s a ∧ ∀ t ∈ step s a, Within step G t as))

theorem Within.imp {step : σ → ι → Option σ} {G H : σ → ι → Prop}
    (h : ∀ s a, G s a → H s a) :
    ∀ {as : List ι} {s : σ}, Within step G s as → Within step H s as
  | [], _, _ => trivial
  | _ :: _, _, ⟨hG, hrest⟩ =>
      ⟨h _ _ hG, fun t ht => Within.imp h (hrest t ht)⟩

theorem within_append {step : σ → ι → Option σ} {G : σ → ι → Prop} {as bs : List ι} {s : σ} :
    Within step G s (as ++ bs) ↔
      Within step G s as ∧ ∀ t, runs step s as = some t → Within step G t bs := by
  induction as generalizing s with
  | nil => exact ⟨fun h => ⟨trivial, fun t ht => Option.some.inj ht ▸ h⟩, fun h => h.2 s rfl⟩
  | cons a as ih =>
      constructor
      · rintro ⟨hG, hrest⟩
        refine ⟨⟨hG, fun t ht => (ih.mp (hrest t ht)).1⟩, fun u hu => ?_⟩
        obtain ⟨t, ht, hu⟩ := runs_cons_eq_some.mp hu
        exact (ih.mp (hrest t ht)).2 u hu
      · rintro ⟨⟨hG, hrest⟩, hbs⟩
        exact ⟨hG, fun t ht =>
          ih.mpr ⟨hrest t ht, fun u hu => hbs u (runs_cons_eq_some.mpr ⟨t, ht, hu⟩)⟩⟩

theorem Within.and {step : σ → ι → Option σ} {G H : σ → ι → Prop} :
    ∀ {as : List ι} {s : σ}, Within step G s as → Within step H s as →
      Within step (fun s a => G s a ∧ H s a) s as
  | [], _, _, _ => trivial
  | _ :: _, _, ⟨hG, hG'⟩, ⟨hH, hH'⟩ =>
      ⟨⟨hG, hH⟩, fun t ht => Within.and (hG' t ht) (hH' t ht)⟩

/-- What an invariant that the guarded steps preserve and the guard imply
holds of the steps of a guarded run. -/
theorem Within.imp_of_within_invariant {step : σ → ι → Option σ} {G H : σ → ι → Prop}
    {I : σ → Prop} (hstep : ∀ s a t, I s → G s a → step s a = some t → I t)
    (h : ∀ s a, I s → G s a → H s a) :
    ∀ {as : List ι} {s : σ}, I s → Within step G s as → Within step H s as
  | [], _, _, _ => trivial
  | _ :: _, s, hs, ⟨hG, hrest⟩ => ⟨h s _ hs hG, fun t ht =>
      Within.imp_of_within_invariant hstep h (hstep s _ t hs hG ht) (hrest t ht)⟩

/-- What an invariant and the condition on a step imply holds of the steps
of the run. -/
theorem Within.imp_of_invariant {step : σ → ι → Option σ} {G H : σ → ι → Prop} {I : σ → Prop}
    (hstep : ∀ s a t, I s → step s a = some t → I t) (h : ∀ s a, I s → G s a → H s a)
    {as : List ι} {s : σ} (hs : I s) (hG : Within step G s as) : Within step H s as :=
  Within.imp_of_within_invariant (fun s a t hs _ => hstep s a t hs) h hs hG

/-- Two conditions that agree wherever the invariant holds, of which one
keeps the invariant, are met by the same runs. -/
theorem within_iff_of_invariant {step : σ → ι → Option σ} {G H : σ → ι → Prop} {I : σ → Prop}
    (hstep : ∀ s a t, I s → H s a → step s a = some t → I t)
    (h : ∀ s a, I s → (G s a ↔ H s a)) {as : List ι} {s : σ} (hs : I s) :
    Within step G s as ↔ Within step H s as := by
  induction as generalizing s with
  | nil => exact Iff.rfl
  | cons a as ih =>
      constructor
      · rintro ⟨hG, hrest⟩
        have hH := (h s a hs).mp hG
        exact ⟨hH, fun t ht => (ih (hstep s a t hs hH ht)).mp (hrest t ht)⟩
      · rintro ⟨hH, hrest⟩
        exact ⟨(h s a hs).mpr hH, fun t ht => (ih (hstep s a t hs hH ht)).mpr (hrest t ht)⟩

/-- For a run it is enough that the conditions agree on the steps that are
taken. -/
theorem within_iff_of_runs {step : σ → ι → Option σ} {G H : σ → ι → Prop} {I : σ → Prop}
    (hstep : ∀ s a t, I s → H s a → step s a = some t → I t)
    (h : ∀ s a t, I s → step s a = some t → (G s a ↔ H s a)) {as : List ι} {s u : σ} (hs : I s)
    (hrun : runs step s as = some u) : Within step G s as ↔ Within step H s as := by
  induction as generalizing s with
  | nil => exact Iff.rfl
  | cons a as ih =>
      obtain ⟨t, ht, hrest⟩ := runs_cons_eq_some.mp hrun
      have hagree : ∀ t', step s a = some t' → H s a →
          (Within step G t' as ↔ Within step H t' as) := by
        intro t' ht' hH
        obtain rfl : t = t' := Option.some.inj (ht.symm.trans ht')
        exact ih (hstep s a t hs hH ht) hrest
      constructor
      · rintro ⟨hG, hG'⟩
        have hH := (h s a t hs ht).mp hG
        exact ⟨hH, fun t' ht' => (hagree t' ht' hH).mp (hG' t' ht')⟩
      · rintro ⟨hH, hH'⟩
        exact ⟨(h s a t hs ht).mpr hH, fun t' ht' => (hagree t' ht' hH).mpr (hH' t' ht')⟩

/-- The same for the steps that a run takes. -/
theorem Within.imp_of_runs {step : σ → ι → Option σ} {G H : σ → ι → Prop} {I : σ → Prop}
    (hstep : ∀ s a t, I s → G s a → step s a = some t → I t)
    (h : ∀ s a t, I s → G s a → step s a = some t → H s a) {as : List ι} {s u : σ} (hs : I s)
    (hG : Within step G s as) (hrun : runs step s as = some u) : Within step H s as := by
  induction as generalizing s with
  | nil => exact trivial
  | cons a as ih =>
      obtain ⟨t, ht, hrest⟩ := runs_cons_eq_some.mp hrun
      refine ⟨h s a t hs hG.1 ht, fun t' ht' => ?_⟩
      obtain rfl := Option.some.inj (ht.symm.trans ht')
      exact ih (hstep s a t hs hG.1 ht) (hG.2 t ht) hrest

theorem within_of_forall {step : σ → ι → Option σ} {G : σ → ι → Prop} {as : List ι}
    (h : ∀ s, ∀ a ∈ as, G s a) (s : σ) : Within step G s as := by
  induction as generalizing s with
  | nil => exact trivial
  | cons a as ih =>
      exact ⟨h s a (List.mem_cons_self ..), fun t _ =>
        ih (fun s a' ha' => h s a' (List.mem_cons_of_mem _ ha')) t⟩

/-- The run rule for guarded runs: what every guarded step preserves holds
at the end of a guarded run. -/
theorem runs_within_invariant {step : σ → ι → Option σ} {G : σ → ι → Prop}
    {I : σ → Prop}
    (hstep : ∀ s a t, I s → G s a → step s a = some t → I t)
    {as : List ι} {s t : σ} (hs : I s) (hG : Within step G s as)
    (hrun : runs step s as = some t) : I t := by
  induction as generalizing s with
  | nil =>
      obtain rfl := Option.some.inj hrun
      exact hs
  | cons a as ih =>
      obtain ⟨s', hs', hrest⟩ := runs_cons_eq_some.mp hrun
      exact ih (hstep s a s' hs hG.1 hs') (hG.2 s' hs') hrest

/-- The run rule: what every step preserves holds at the end of a run. -/
theorem runs_invariant {step : σ → ι → Option σ} {I : σ → Prop}
    (hstep : ∀ s a t, I s → step s a = some t → I t)
    {as : List ι} {s t : σ} (hs : I s) (hrun : runs step s as = some t) : I t := by
  induction as generalizing s with
  | nil =>
      obtain rfl := Option.some.inj hrun
      exact hs
  | cons a as ih =>
      obtain ⟨s', hs', hrest⟩ := runs_cons_eq_some.mp hrun
      exact ih (hstep s a s' hs hs') hrest

/-! ## Runs with a record -/

variable {ρ : Type} {step : σ → ι → Option σ} {note : σ → ι → σ → ρ → ρ}

/-- The step, and what a record of the run notes of it. -/
def recording (step : σ → ι → Option σ) (note : σ → ι → σ → ρ → ρ) (s : σ × ρ) (a : ι) :
    Option (σ × ρ) :=
  (step s.1 a).map fun t => (t, note s.1 a t s.2)

theorem recording_eq_some {s t : σ × ρ} {a : ι} (h : recording step note s a = some t) :
    step s.1 a = some t.1 ∧ t.2 = note s.1 a t.1 s.2 := by
  obtain ⟨u, hu, rfl⟩ := Option.map_eq_some_iff.mp h
  exact ⟨hu, rfl⟩

theorem runs_recording (note : σ → ι → σ → ρ → ρ) {as : List ι} {s t : σ} {r : ρ}
    (hrun : runs step s as = some t) :
    ∃ r', runs (recording step note) (s, r) as = some (t, r') := by
  induction as generalizing s r with
  | nil =>
      obtain rfl := Option.some.inj hrun
      exact ⟨r, rfl⟩
  | cons a as ih =>
      obtain ⟨u, hu, hrest⟩ := runs_cons_eq_some.mp hrun
      obtain ⟨r', hr'⟩ := ih (r := note s a u r) hrest
      exact ⟨r', runs_cons_eq_some.mpr ⟨_, by simp only [recording, hu, Option.map_some], hr'⟩⟩

/-- A condition that does not look at the record. -/
theorem within_recording {G : σ → ι → Prop} {as : List ι} {s : σ} {r : ρ} :
    Within (recording step note) (fun s a => G s.1 a) (s, r) as ↔ Within step G s as := by
  induction as generalizing s r with
  | nil => exact Iff.rfl
  | cons a as ih =>
      refine and_congr_right fun _ => ⟨fun h t ht => ?_, fun h t ht => ?_⟩
      · exact ih.mp (h (t, note s a t r) (by simp only [recording, ht, Option.map_some]))
      · obtain ⟨hstep, -⟩ := recording_eq_some ht
        exact ih.mpr (h t.1 hstep)

end Lts

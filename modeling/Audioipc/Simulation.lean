import Audioipc.Lts

/-!
# Refinement

`history` is what an observer sees of a run: each step shows a list of
events, which may be empty. `Simulates` is forward simulation: what one step
of the first system shows, some steps of the second show as well, and the
two states stay related. Then every history of the first system is one of
the second (`Simulates.history`), so what holds of all histories of the
second holds of all of the first.
-/

namespace Lts

variable {σ ι τ κ ω : Type}

def history (step : σ → ι → Option σ) (obs : σ → ι → σ → List ω) : σ → List ι → List ω
  | _, [] => []
  | s, a :: as =>
      match step s a with
      | none => []
      | some t => obs s a t ++ history step obs t as

theorem history_cons {step : σ → ι → Option σ} {obs : σ → ι → σ → List ω} {s t : σ} {a : ι}
    (as : List ι) (h : step s a = some t) :
    history step obs s (a :: as) = obs s a t ++ history step obs t as := by
  simp only [history, h]

theorem history_append {step : σ → ι → Option σ} {obs : σ → ι → σ → List ω} {as : List ι}
    (bs : List ι) {s t : σ} (h : runs step s as = some t) :
    history step obs s (as ++ bs) = history step obs s as ++ history step obs t bs := by
  induction as generalizing s with
  | nil =>
      obtain rfl := Option.some.inj h
      rfl
  | cons a as ih =>
      obtain ⟨s', hs', hrest⟩ := runs_cons_eq_some.mp h
      rw [List.cons_append, history_cons _ hs', history_cons _ hs', ih hrest, List.append_assoc]

theorem forall_history {step : σ → ι → Option σ} {obs : σ → ι → σ → List ω} {P : ω → Prop}
    (h : ∀ s a t, ∀ e ∈ obs s a t, P e) {as : List ι} {s : σ} :
    ∀ e ∈ history step obs s as, P e := by
  induction as generalizing s with
  | nil => exact fun e he => absurd he List.not_mem_nil
  | cons a as ih =>
      intro e he
      unfold history at he
      split at he
      · cases he
      · rcases List.mem_append.mp he with hnow | hlater
        · exact h s a _ e hnow
        · exact ih e hlater

/-- Steps of the second system do for a step of the first. -/
def Matches (step : τ → κ → Option τ) (obs : τ → κ → τ → List ω) (R : τ → Prop) (t : τ)
    (events : List ω) : Prop :=
  ∃ bs t', runs step t bs = some t' ∧ history step obs t bs = events ∧ R t'

def Simulates (step : σ → ι → Option σ) (obs : σ → ι → σ → List ω) (step' : τ → κ → Option τ)
    (obs' : τ → κ → τ → List ω) (R : σ → τ → Prop) : Prop :=
  ∀ s t a s', R s t → step s a = some s' → Matches step' obs' (R s') t (obs s a s')

/-- Lock step: the second system follows each action of the first with the
same action, where the first meets `G`. -/
theorem runs_follow {step : σ → ι → Option σ} {step' : τ → ι → Option τ} {G : σ → ι → Prop}
    {R : σ → τ → Prop}
    (h : ∀ s t a s', R s t → G s a → step s a = some s' → ∃ t', step' t a = some t' ∧ R s' t')
    {as : List ι} {s s' : σ} {t : τ} (hR : R s t) (hG : Within step G s as)
    (hrun : runs step s as = some s') : ∃ t', runs step' t as = some t' ∧ R s' t' := by
  induction as generalizing s t with
  | nil =>
      obtain rfl := Option.some.inj hrun
      exact ⟨t, rfl, hR⟩
  | cons a as ih =>
      obtain ⟨s₁, hstep, hrest⟩ := runs_cons_eq_some.mp hrun
      obtain ⟨t₁, hstep', hR₁⟩ := h s t a s₁ hR hG.1 hstep
      obtain ⟨t', hrun', hR'⟩ := ih hR₁ (hG.2 s₁ hstep) hrest
      exact ⟨t', runs_cons_eq_some.mpr ⟨t₁, hstep', hrun'⟩, hR'⟩

section Matches

variable {step : τ → κ → Option τ} {obs : τ → κ → τ → List ω} {R : τ → Prop} {t t' : τ}

theorem matches_none (h : R t) : Matches step obs R t [] := ⟨[], t, rfl, rfl, h⟩

theorem matches_one {b : κ} (hstep : step t b = some t') (h : R t') :
    Matches step obs R t (obs t b t') :=
  ⟨[b], t', runs_cons_eq_some.mpr ⟨t', hstep, rfl⟩,
    (history_cons [] hstep).trans (List.append_nil _), h⟩

end Matches

variable {step : σ → ι → Option σ} {obs : σ → ι → σ → List ω} {step' : τ → κ → Option τ}
  {obs' : τ → κ → τ → List ω} {R : σ → τ → Prop}

theorem Simulates.history (h : Simulates step obs step' obs' R) {as : List ι} {s s' : σ} {t : τ}
    (hR : R s t) (hrun : runs step s as = some s') :
    Matches step' obs' (R s') t (history step obs s as) := by
  induction as generalizing s t with
  | nil =>
      obtain rfl := Option.some.inj hrun
      exact matches_none hR
  | cons a as ih =>
      obtain ⟨u, hu, hrest⟩ := runs_cons_eq_some.mp hrun
      obtain ⟨bs, t₁, hbs, hevents, hR₁⟩ := h s t a u hR hu
      obtain ⟨bs', t₂, hbs', hevents', hR₂⟩ := ih hR₁ hrest
      refine ⟨bs ++ bs', t₂, runs_append hbs hbs', ?_, hR₂⟩
      rw [history_append bs' hbs, hevents, hevents', history_cons as hu]

end Lts

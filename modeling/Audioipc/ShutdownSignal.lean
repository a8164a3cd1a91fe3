import Audioipc.LoopFailures

/-!
# The shutdown of an event loop

`EventLoopThread::drop` pushes a `Shutdown` on the same bounded queue as all
other requests, and then joins the thread, whether the push has succeeded or
not.

Once the loop has been told to stop it stays so (`toldToStop_step`). It has
been told when `shutdown` is past a push that found room, and it has not when
the queue was full (`push_full_loses`).
-/

namespace Audioipc

namespace SharedLoop

/-- A `Shutdown` is in the queue or has been popped, or the loop has exited. -/
def ToldToStop (l : SharedLoop) : Prop :=
  (∃ id c, (id ∈ l.queue ∨ id ∈ l.handled) ∧ l.calls id = some c ∧ c.kind = .shutdown) ∨
    l.phase.runs = false

variable {l l' : SharedLoop} {id : RequestId} {c : HandleCall} {a : FallibleAction}

theorem toldToStop_step (hfresh : l.Fresh) (hs : l.fallibleStep a = some l')
    (h : l.ToldToStop) : l'.ToldToStop := by
  rcases h with ⟨id, c, hin, hc, hkind⟩ | hexited
  · obtain ⟨c', hc', hkind'⟩ := fallibleStep_kind hfresh hs hc
    have htold : id ∈ l'.queue ∨ id ∈ l'.handled → l'.ToldToStop := fun hin' =>
      Or.inl ⟨id, c', hin', hc', hkind'.trans hkind⟩
    cases (fallibleStep_loop hs).queue with
    | kept _ hqueue hhandled | finished _ _ hqueue hhandled =>
        exact htold (by rwa [hqueue, hhandled])
    | pushed _ _ _ _ hqueue hhandled =>
        rw [hqueue, hhandled] at htold
        exact htold (hin.imp_left (List.mem_append_left _))
    | taken _ _ hqueue hhandled =>
        rw [hqueue] at hin
        rw [hhandled] at htold
        rcases hin with hin | hin
        · rcases List.mem_cons.mp hin with rfl | hin
          · exact htold (Or.inr (List.mem_append_right _ (List.mem_singleton_self _)))
          · exact htold (Or.inl hin)
        · exact htold (Or.inr (List.mem_append_left _ hin))
    | dropped _ _ hphase =>
        right
        rw [hphase]
        rfl
  · right
    by_contra hruns
    rw [(fallibleStep_loop hs).runs (by simpa using hruns)] at hexited
    cases hexited

end SharedLoop

/-- How far the drop of an `EventLoopThread` has come: it is in
`self.handle.shutdown()`, then in `thread.join()`. -/
inductive LoopOwner where
  | live
  | signalling (id : RequestId)
  | joining
  | joined
deriving Repr, DecidableEq

structure EventLoopThread where
  eventLoop : SharedLoop
  owner : LoopOwner

/-- `panics` is a panic of a driver. -/
inductive LoopThreadAction where
  | step (a : FallibleAction)
  | panics
  | drop
  | join
  | joined

def LoopThreadAction.pushes : LoopThreadAction → Option RequestId
  | .step (.shared (.push id)) => some id
  | _ => none

namespace EventLoopThread

def new : EventLoopThread := ⟨.new, .live⟩

def step (t : EventLoopThread) : LoopThreadAction → Option EventLoopThread
  -- `EventLoopHandle::shutdown` is private, and only `drop` calls it
  | .step (.shared (.call .shutdown)) => none
  | .step a => (t.eventLoop.fallibleStep a).map fun l => { t with eventLoop := l }
  | .panics =>
      match t.eventLoop.phase with
      | .events _ | .popping | .taken _ =>
          some { t with eventLoop := { t.eventLoop with phase := .exited } }
      | _ => none
  | .drop =>
      match t.owner with
      | .live =>
          (t.eventLoop.step (.call .shutdown)).map fun l => ⟨l, .signalling t.eventLoop.next⟩
      | _ => none
  | .join =>
      match t.owner with
      | .signalling id =>
          match t.eventLoop.calls id with
          -- an `Err` is only logged
          | some ⟨_, .returned _, _, _⟩ => some { t with owner := .joining }
          | _ => none
      | _ => none
  | .joined =>
      match t.owner, t.eventLoop.phase with
      | .joining, .dropped => some { t with owner := .joined }
      | _, _ => none

variable {t t' : EventLoopThread} {id : RequestId} {c : HandleCall} {a : LoopThreadAction}

/-- When `shutdown` pushes its request there is room, unless the loop has exited. -/
def HasRoom (t : EventLoopThread) (a : LoopThreadAction) : Prop :=
  ∀ id ∈ a.pushes, t.owner = .signalling id →
    t.eventLoop.queue.length < EVENT_LOOP_INITIAL_CLIENTS ∨ t.eventLoop.phase.runs = false

instance (t : EventLoopThread) (a : LoopThreadAction) : Decidable (t.HasRoom a) :=
  inferInstanceAs (Decidable (∀ id ∈ a.pushes, t.owner = .signalling id →
    t.eventLoop.queue.length < EVENT_LOOP_INITIAL_CLIENTS ∨ t.eventLoop.phase.runs = false))

inductive Moves (t : EventLoopThread) : LoopThreadAction → EventLoopThread → Prop
  | stepped {a : FallibleAction} {l : SharedLoop} (ha : a ≠ .shared (.call .shutdown))
      (hs : t.eventLoop.fallibleStep a = some l) : Moves t (.step a) { t with eventLoop := l }
  | panicked : Moves t .panics { t with eventLoop := { t.eventLoop with phase := .exited } }
  | dropping {l : SharedLoop} (howner : t.owner = .live)
      (hs : t.eventLoop.fallibleStep (.shared (.call .shutdown)) = some l) :
      Moves t .drop ⟨l, .signalling t.eventLoop.next⟩
  | joining {id : RequestId} {c : HandleCall} {r : Except IoError (Option Token)}
      (howner : t.owner = .signalling id) (hc : t.eventLoop.calls id = some c)
      (hph : c.phase = .returned r) : Moves t .join { t with owner := .joining }
  | joined (howner : t.owner = .joining) (hphase : t.eventLoop.phase = .dropped) :
      Moves t .joined { t with owner := .joined }

theorem step_cases (hs : t.step a = some t') : t.Moves a t' := by
  cases a with
  | step a =>
      have hstepped : a ≠ .shared (.call .shutdown) →
          (t.eventLoop.fallibleStep a).map (fun l => { t with eventLoop := l }) = some t' →
          t.Moves (.step a) t' := by
        intro hne hs
        obtain ⟨l, hl, rfl⟩ := Option.map_eq_some_iff.mp hs
        exact .stepped hne hl
      unfold step at hs
      split at hs
      · cases hs
      · rename_i hne ha
        cases ha
        exact hstepped hne hs
      all_goals
        rename_i heq
        cases heq
  | panics =>
      simp only [step] at hs
      split at hs <;> cases hs <;> exact .panicked
  | drop =>
      simp only [step] at hs
      split at hs
      · obtain ⟨l, hl, rfl⟩ := Option.map_eq_some_iff.mp hs
        exact .dropping ‹_› hl
      · cases hs
  | join =>
      simp only [step] at hs
      split at hs
      · split at hs <;> cases hs
        exact .joining ‹_› ‹_› rfl
      · cases hs
  | joined =>
      simp only [step] at hs
      split at hs <;> cases hs
      exact .joined ‹_› ‹_›

/-! ## What holds of every run -/

/-- Nobody else calls `shutdown` (`sole`). -/
structure Inv (t : EventLoopThread) : Prop where
  fresh : t.eventLoop.Fresh
  entered : t.eventLoop.Entered
  signalling : ∀ id, t.owner = .signalling id →
    ∃ c, t.eventLoop.calls id = some c ∧ c.kind = .shutdown
  sole : ∀ id, t.owner = .live ∨ (∃ id', t.owner = .signalling id' ∧ id ≠ id') →
    t.eventLoop.NoShutdown id

theorem inv_new : new.Inv where
  fresh := fun _ _ => rfl
  entered := fun _ hin => absurd hin (not_or.mpr ⟨List.not_mem_nil, List.not_mem_nil⟩)
  signalling := fun _ howner => by cases howner
  sole := fun _ _ _ hc => by cases hc

theorem noShutdown_step {l l' : SharedLoop} {a : FallibleAction}
    (ha : a ≠ .shared (.call .shutdown)) (hs : l.fallibleStep a = some l')
    (hno : l.NoShutdown id) : l'.NoShutdown id := by
  intro c' hc'
  cases SharedLoop.fallibleStep_calls hs id with
  | same hcall =>
      rw [hc'] at hcall
      obtain ⟨c, hc, heq⟩ := Option.map_eq_some_iff.mp hcall.symm
      rw [(SharedLoop.eq_of_released heq.symm).1]
      exact hno c hc
  | @began kind hbegan _ _ hcall =>
      rw [hc'] at hcall
      cases hcall
      rintro hkind
      cases kind <;> cases hkind
      exact ha hbegan
  | @own c c₁ hc hc₁ hown =>
      rw [hc'] at hc₁
      cases hc₁
      rw [hown.kind]
      exact hno c hc
  | lost _ _ hcall =>
      obtain ⟨c, hc, rfl⟩ := Option.map_eq_some_iff.mp (hcall.symm.trans hc')
      exact hno c hc
  | @answered c c₁ _ _ _ hc hc₁ hkind =>
      rw [hc'] at hc₁
      cases hc₁
      rw [hkind]
      exact hno c hc

theorem step_inv (h : t.Inv) (hs : t.step a = some t') : t'.Inv := by
  cases step_cases hs with
  | stepped ha hl =>
      refine ⟨SharedLoop.fresh_step h.fresh hl, SharedLoop.entered_step h.fresh hl h.entered,
        fun id howner => ?_, fun id howner => noShutdown_step ha hl (h.sole id howner)⟩
      obtain ⟨c, hc, hkind⟩ := h.signalling id howner
      obtain ⟨c', hc', hkind'⟩ := SharedLoop.fallibleStep_kind h.fresh hl hc
      exact ⟨c', hc', hkind'.trans hkind⟩
  | panicked => exact ⟨h.fresh, h.entered, h.signalling, h.sole⟩
  | dropping howner hl =>
      refine ⟨SharedLoop.fresh_step h.fresh hl, SharedLoop.entered_step h.fresh hl h.entered,
        ?_, ?_⟩
      · rintro _ ⟨⟩
        cases hl
        exact ⟨_, Function.update_self .., rfl⟩
      · rintro id (howner' | ⟨_, ⟨⟩, hne⟩)
        · cases howner'
        · cases hl
          intro c hc
          exact h.sole id (Or.inl howner) c ((Function.update_of_ne hne ..).symm.trans hc)
  | joining | joined =>
      refine ⟨h.fresh, h.entered, fun _ howner => ?_, ?_⟩
      · cases howner
      · rintro _ (howner | ⟨_, howner, -⟩) <;> cases howner

/-! ## When the signal arrives -/

/-- `shutdown` is past its push, and the loop has been told. -/
structure Told (t : EventLoopThread) : Prop where
  signalled : ∀ id c, t.owner = .signalling id → t.eventLoop.calls id = some c →
    c.phase.beforePush = false → t.eventLoop.ToldToStop
  joining : t.owner = .joining → t.eventLoop.ToldToStop

theorem told_step (h : t.Inv) (htold : t.Told) (hroom : t.HasRoom a) (hs : t.step a = some t') :
    t'.Told := by
  cases step_cases hs with
  | @stepped a l ha hl =>
      refine ⟨fun id c' howner hc' hpast => ?_,
        fun howner => SharedLoop.toldToStop_step h.fresh hl (htold.joining howner)⟩
      have hold : ∀ c, t.eventLoop.calls id = some c → c.phase.beforePush = false →
          l.ToldToStop := fun c hc hpast =>
        SharedLoop.toldToStop_step h.fresh hl (htold.signalled id c howner hc hpast)
      have hexited : t.eventLoop.phase.runs = false → l.ToldToStop := fun hexited =>
        SharedLoop.toldToStop_step h.fresh hl (Or.inr hexited)
      obtain ⟨c, hc, hkind⟩ := h.signalling id howner
      cases hbefore : c.phase.beforePush with
      | false => exact hold c hc hbefore
      | true =>
          rcases SharedLoop.fallibleStep_enters h.fresh hl hc hbefore hc' hpast with
            hphase | ⟨rfl, hin | hfull⟩
          · exact hexited (by rw [hphase]; rfl)
          · obtain ⟨c₁, hc₁, hkind₁⟩ := SharedLoop.fallibleStep_kind h.fresh hl hc
            exact Or.inl ⟨id, c₁, Or.inl hin, hc₁, hkind₁.trans hkind⟩
          · rcases hroom id rfl howner with hless | hstopped
            · exact absurd hless (Nat.not_lt_of_le hfull)
            · exact hexited hstopped
  | panicked => exact ⟨fun _ _ _ _ _ => Or.inr rfl, fun _ => Or.inr rfl⟩
  | dropping _ hl =>
      refine ⟨?_, fun howner => by cases howner⟩
      rintro _ c ⟨⟩ hc hpast
      cases hl
      rw [show c = .new .shutdown from
        Option.some.inj (hc.symm.trans (Function.update_self ..))] at hpast
      cases hpast
  | joining howner hc hph =>
      exact ⟨fun _ _ howner => (by cases howner), fun _ =>
        htold.signalled _ _ howner hc (by rw [hph]; rfl)⟩
  | joined => exact ⟨fun _ _ howner => (by cases howner), fun howner => by cases howner⟩

/-! ## When it is lost -/

/-- The push finds the queue full, `drop` goes on to `thread.join()`. -/
def losePush (id : RequestId) : List LoopThreadAction :=
  [.step (.shared (.push id)), .step (.shared (.release id)), .join]

theorem push_full_loses (h : t.Inv) (howner : t.owner = .signalling id)
    (hc : t.eventLoop.calls id = some c) (hph : c.phase = .upgraded)
    (hruns : t.eventLoop.phase.runs = true)
    (hfull : EVENT_LOOP_INITIAL_CLIENTS ≤ t.eventLoop.queue.length) :
    ∃ t', Lts.runs step t (losePush id) = some t' ∧ t'.owner = .joining ∧
      ¬ t'.eventLoop.ToldToStop := by
  obtain ⟨l, owner⟩ := t
  obtain ⟨kind, phase, reply, place⟩ := c
  cases hph
  cases howner
  have hfull : ¬ l.queue.length < EVENT_LOOP_INITIAL_CLIENTS := Nat.not_lt_of_le hfull
  have hc : l.calls id = some ⟨kind, .upgraded, reply, place⟩ := hc
  have hruns : l.phase.runs = true := hruns
  let c₁ : HandleCall := ⟨kind, .pushed false, .closed, .dropped⟩
  let l₁ : SharedLoop := l.setCall id c₁
  have hpush : l.fallibleStep (.shared (.push id)) = some l₁ := by
    simp only [SharedLoop.fallibleStep, SharedLoop.step, hc, SharedLoop.push, if_neg hfull]
    rfl
  have hc₁ : l₁.calls id = some c₁ := Function.update_self ..
  let c₂ : HandleCall := { c₁ with phase := .returned c₁.failure }
  let l₂ : SharedLoop := { l₁.setCall id c₂ with pushing := l₁.pushing.erase id }
  have hkept : l₂.dropQueue = l₂ := by
    rcases SharedLoop.dropQueue_cases l₂ with hkept | ⟨-, hphase, -⟩
    · exact hkept
    · rw [show l.phase = .dropped from hphase] at hruns
      cases hruns
  have hrelease : l₁.fallibleStep (.shared (.release id)) = some l₂ := by
    simp only [SharedLoop.fallibleStep, SharedLoop.step, hc₁]
    exact congrArg some hkept
  have hc₂ : l₂.calls id = some c₂ := Function.update_self ..
  refine ⟨⟨l₂, .joining⟩, ?_, rfl, ?_⟩
  · simp only [losePush, Lts.runs_cons, Lts.runs_nil, step, hpush, hrelease, hc₂, Option.map_some,
      Option.bind_some]
    rfl
  · rintro (⟨id', c', hin, hc', hkind⟩ | hexited)
    · have hne : id' ≠ id := by
        rintro rfl
        obtain ⟨c₀, hc₀, hpast⟩ := h.entered id' hin
        rw [show l.calls id' = some c₀ from hc₀] at hc
        cases hc
        cases hpast
      have hold : l.calls id' = some c' := by
        rw [← show l₂.calls id' = l.calls id' from
          (Function.update_of_ne hne ..).trans (Function.update_of_ne hne ..)]
        exact hc'
      exact h.sole id' (Or.inr ⟨id, rfl, hne⟩) c' hold hkind
    · rw [show l.phase.runs = false from hexited] at hruns
      cases hruns

/-! ## The shutdown of every run -/

theorem runs_inv {as : List LoopThreadAction} (hrun : Lts.runs step new as = some t) : t.Inv :=
  Lts.runs_invariant (fun _ _ _ h hs => step_inv h hs) inv_new hrun

theorem told_new : new.Told :=
  ⟨fun _ _ howner => (by cases howner), fun howner => by cases howner⟩

theorem runs_told {as : List LoopThreadAction} (hroom : Lts.Within step HasRoom new as)
    (hrun : Lts.runs step new as = some t) : t.Told :=
  (Lts.runs_within_invariant
    (fun _ _ _ (h : Inv _ ∧ Told _) hG hs => ⟨step_inv h.1 hs, told_step h.1 h.2 hG hs⟩)
    ⟨inv_new, told_new⟩ hroom hrun).2

/-- When `drop` gets to `thread.join()`, the loop has been told to stop, if the
push of `shutdown` has found room; if it has not, the loop may go on for ever. -/
theorem shutdown_told {as : List LoopThreadAction} (hrun : Lts.runs step new as = some t) :
    (Lts.Within step HasRoom new as → t.owner = .joining → t.eventLoop.ToldToStop) ∧
    (∀ id c, t.owner = .signalling id → t.eventLoop.calls id = some c → c.phase = .upgraded →
      ¬ t.HasRoom (.step (.shared (.push id))) →
      ∃ t', Lts.runs step t (losePush id) = some t' ∧ t'.owner = .joining ∧
        ¬ t'.eventLoop.ToldToStop) := by
  refine ⟨fun hroom => (runs_told hroom hrun).joining, fun id c howner hc hph hno => ?_⟩
  have hfull : EVENT_LOOP_INITIAL_CLIENTS ≤ t.eventLoop.queue.length := by
    by_contra hless
    exact hno fun _ _ _ => Or.inl (Nat.lt_of_not_le hless)
  have hruns : t.eventLoop.phase.runs = true := by
    by_contra hexited
    exact hno fun _ _ _ => Or.inr (by simpa using hexited)
  exact push_full_loses (runs_inv hrun) howner hc hph hruns hfull

/-- The loop is idle when it is shut down. -/
def idleShutdown : List LoopThreadAction :=
  [.drop, .step (.shared (.upgrade 0)), .step (.shared (.push 0)), .step (.shared (.release 0)),
    .step (.shared (.ring 0)), .join]

theorem shutdown_told_run : ∃ t, Lts.runs step new idleShutdown = some t ∧ t.owner = .joining ∧
    t.eventLoop.ToldToStop := by
  obtain ⟨t, hrun, howner⟩ : ∃ t, Lts.runs step new idleShutdown = some t ∧ t.owner = .joining :=
    ⟨_, rfl, rfl⟩
  exact ⟨t, hrun, howner, (shutdown_told hrun).1 (by decide) howner⟩

def wakeConnection (id : RequestId) : List LoopThreadAction :=
  [.step (.shared (.call (.wakeConnection 0))), .step (.shared (.upgrade id)),
    .step (.shared (.push id)), .step (.shared (.release id)), .step (.shared (.ring id))]

/-- While the loop is handling an event, 64 wakes are requested. -/
def crowdedQueue : List LoopThreadAction :=
  .step (.shared (.poll [0])) :: (List.range 64).flatMap wakeConnection ++
    [.drop, .step (.shared (.upgrade 64))]

/-- `drop` joins the thread of a loop that runs, and has not been told to stop. -/
theorem shutdown_lost : ∃ t, Lts.runs step new (crowdedQueue ++ losePush 64) = some t ∧
    t.owner = .joining ∧ ¬ t.eventLoop.ToldToStop := by
  have hcrowded : (Lts.runs step new crowdedQueue).map (fun t =>
      (t.owner, t.eventLoop.queue.length, t.eventLoop.phase.runs,
        (t.eventLoop.calls 64).map fun c => (c.phase.beforePush, c.phase.holds))) =
      some (.signalling 64, EVENT_LOOP_INITIAL_CLIENTS, true, some (true, true)) := by
    decide +kernel
  obtain ⟨t, hrun, ht⟩ := Option.map_eq_some_iff.mp hcrowded
  simp only [Prod.mk.injEq] at ht
  obtain ⟨howner, hfull, hruns, hcall⟩ := ht
  obtain ⟨c, hc, hphase⟩ := Option.map_eq_some_iff.mp hcall
  have hph : c.phase = .upgraded := by
    cases hph : c.phase with
    | upgraded => rfl
    | _ =>
        rw [hph] at hphase
        cases hphase
  obtain ⟨t', hrun', hjoining⟩ :=
    push_full_loses (runs_inv hrun) howner hc hph hruns (Nat.le_of_eq hfull.symm)
  exact ⟨t', Lts.runs_append hrun hrun', hjoining⟩

end EventLoopThread

end Audioipc

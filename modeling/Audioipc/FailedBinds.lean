import Audioipc.LoopFailures

/-!
# Binds that fail

A bind that returns `Err` should have no effect on the loop. It has one if
its wake fails before the loop has done with its request: the pipe and the
driver are installed afterwards, and the answer to a caller that has gone
panics.

`WillPop` are the requests that the loop will come to, with the one it has
just taken. As long as the wakes of these succeed, their callers are waiting,
or have returned `Ok` without waiting (`HandleCall.Ready`), and this is all
that the handling of a request relies on; the answer relies on the caller
being there (`HandleCall.Awaits`).
-/

namespace Audioipc

def CallKind.isBind : CallKind → Bool
  | .addConnection | .addConnectionAsync => true
  | _ => false

def FallibleAction.key : FallibleAction → Option Token
  | .handle out => some out.key
  | _ => none

def FallibleAction.handles : FallibleAction → Bool
  | .take | .handle _ | .answer => true
  | _ => false

/-- The keys of a `Slab` are indices of a `Vec`. -/
def FallibleAction.SlabKey (a : FallibleAction) : Prop := ∀ key ∈ a.key, key < 2 ^ 63

instance (a : FallibleAction) : Decidable a.SlabKey :=
  inferInstanceAs (Decidable (∀ key ∈ a.key, key < 2 ^ 63))

/-- Who waits for the answer is there to get it. -/
def HandleCall.Awaits (c : HandleCall) : Prop :=
  c.kind = .addConnection → c.reply = .pending ∧ c.phase.awaits = true

/-- What the loop relies on when it comes to a request. -/
structure HandleCall.Ready (c : HandleCall) : Prop where
  entered : c.phase ≠ .pushed false
  waits : c.Awaits
  unfailed : c.kind = .addConnectionAsync →
    c.phase ≠ .waiting ∧ ∀ e, c.phase ≠ .returned (.error e)

theorem HandleCall.Ready.notFailed {c : HandleCall} (h : c.Ready) (hbind : c.kind.isBind = true)
    (e : IoError) : c.phase ≠ .returned (.error e) := by
  intro hph
  obtain ⟨kind, phase, reply, place⟩ := c
  cases hph
  cases kind with
  | addConnection => cases (h.waits rfl).2
  | addConnectionAsync => exact (h.unfailed rfl).2 e rfl
  | shutdown | wakeConnection => cases hbind

namespace SharedLoop

variable {l l' : SharedLoop} {id : RequestId} {c c' : HandleCall} {a : FallibleAction}

/-- The loop will come to the request, unless it fails before. -/
def WillPop (l : SharedLoop) (id : RequestId) : Prop :=
  l.phase.runs = true ∧
    ∃ before after, l.pending = before ++ id :: after ∧ ∀ id' ∈ before, l.NoShutdown id'

/-- When the wake of a bind fails, the loop will not come to its request, and
is not about to send it an answer. -/
def WakeSettled (l : SharedLoop) : FallibleAction → Prop
  | .wakeFails id _ => ∀ c, l.calls id = some c → c.kind.isBind = true →
      ¬ l.WillPop id ∧ (c.kind = .addConnection → ∀ r, l.phase ≠ .answering id r)
  | _ => True

/-- The step installs nothing for a call that has returned `Err`, and the
loop does not end in the handling of a request, but for a `Shutdown`. -/
def Harmless (l : SharedLoop) (a : FallibleAction) : Prop :=
  ∀ l', l.fallibleStep a = some l' →
    (∀ t conn c e, l'.connections t = some conn → l.calls conn.id = some c →
      c.phase = .returned (.error e) → l.connections t = some conn) ∧
    (a.handles = true → (∀ id ∈ l.phase.hand, l.NoShutdown id) → l'.phase.runs = true)

structure Unstale (l : SharedLoop) : Prop where
  fresh : l.Fresh
  entered : l.Entered
  hand : ∀ id, l.phase = .taken id ∨ (∃ r, l.phase = .answering id r) → id ∈ l.handled
  nodup : (l.handled ++ l.queue).Nodup
  unsent : ∀ id c, l.calls id = some c → c.phase.beforePush = true → c.kind = .addConnection →
    c.reply = .pending
  ready : ∀ id c, l.WillPop id → l.calls id = some c → c.Ready
  awaits : ∀ id r c, l.phase = .answering id r → l.calls id = some c → c.Awaits

theorem WillPop.mem (h : l.WillPop id) : id ∈ l.pending := by
  obtain ⟨-, before, after, hpending, -⟩ := h
  rw [hpending]
  exact List.mem_append_right _ (List.mem_cons_self ..)

theorem WillPop.not_dropped (h : l.WillPop id) : l.phase ≠ .dropped := by
  intro hphase
  have hruns := h.1
  rw [hphase] at hruns
  cases hruns

theorem willPop_taken (hphase : l.phase = .taken id) : l.WillPop id :=
  ⟨by rw [hphase]; rfl, [], l.queue, by rw [pending, hphase]; rfl,
    fun _ hin => absurd hin List.not_mem_nil⟩

/-- No step but its push brings a request before the loop. -/
theorem willPop_of_step (hfresh : l.Fresh) (hs : l.fallibleStep a = some l')
    (h : l'.WillPop id) : l.WillPop id ∨ (∃ c, l.calls id = some c ∧ c.phase = .upgraded ∧
      l'.calls id = some c.enqueued) := by
  obtain ⟨hruns', before, after, hpending', hbefore⟩ := h
  have hruns := (fallibleStep_loop hs).runs hruns'
  have hno : ∀ id' ∈ before, l.NoShutdown id' := fun id' hin =>
    noShutdown_of_step hfresh hs (hbefore id' hin)
  cases (fallibleStep_loop hs).queue with
  | kept hhand hqueue =>
      exact Or.inl ⟨hruns, before, after, by rw [pending, ← hhand, ← hqueue]; exact hpending', hno⟩
  | @pushed id₀ c hc hph hc' hhand hqueue =>
      by_cases hid : id = id₀
      · subst hid
        exact Or.inr ⟨c, hc, hph, hc'⟩
      · rw [pending, hhand, hqueue, ← List.append_assoc] at hpending'
        rcases List.eq_nil_or_concat after with rfl | ⟨rest, last, rfl⟩
        · have hlast := (List.append_inj' hpending' rfl).2
          exact absurd (List.cons.inj hlast).1.symm hid
        · rw [List.concat_eq_append, ← List.cons_append, ← List.append_assoc] at hpending'
          exact Or.inl ⟨hruns, before, rest, (List.append_inj' hpending' rfl).1, hno⟩
  | taken hhand hphase hqueue =>
      refine Or.inl ⟨hruns, before, after, ?_, hno⟩
      rw [pending, hhand, hqueue, ← hpending', pending, hphase]
      rfl
  | @finished id₀ out hphase hhand hqueue _ hshutdown =>
      refine Or.inl ⟨hruns, id₀ :: before, after, ?_, fun id' hin => ?_⟩
      · rw [pending, hhand, hqueue] at hpending'
        rw [pending, hphase, List.cons_append, ← hpending']
        rfl
      · rcases List.mem_cons.mp hin with rfl | hin
        · exact hshutdown hruns'
        · exact hno id' hin
  | dropped _ _ hphase =>
      rw [hphase] at hruns'
      cases hruns'

theorem unstale_new : new.Unstale where
  fresh := fun _ _ => rfl
  entered := fun _ hin => absurd hin (not_or.mpr ⟨List.not_mem_nil, List.not_mem_nil⟩)
  hand := fun _ hphase => by rcases hphase with h | ⟨r, h⟩ <;> cases h
  nodup := List.nodup_nil
  unsent := fun _ _ hc => by cases hc
  ready := fun _ _ h => absurd h.mem List.not_mem_nil
  awaits := fun _ _ _ hphase => by cases hphase

theorem OwnMoves.awaits (h : OwnMoves l l' id c c' a) (hawaits : c.Awaits)
    (hpast : c.phase.beforePush = false) (hphase : l'.phase ≠ .dropped)
    (hwake : ∀ e, a = .wakeFails id e → c.kind ≠ .addConnection) : c'.Awaits := by
  cases h with
  | upgraded hph | refused hph | pushed hph | full hph =>
      rw [hph] at hpast
      cases hpast
  | @released ok hph hkind hphase' hreply =>
      intro hk
      obtain ⟨hpending, hwaits⟩ := hawaits (hkind ▸ hk)
      obtain rfl : ok = true := by
        rw [hph] at hwaits
        cases ok with
        | false => cases hwaits
        | true => rfl
      rw [hreply hphase, hphase']
      exact ⟨hpending, rfl⟩
  | waits _ hkind hc' =>
      subst hc'
      exact fun hk => ⟨(hawaits hk).1, rfl⟩
  | rung _ hkind hc' =>
      subst hc'
      exact fun hk => absurd hk hkind
  | wakeFailed _ hc' =>
      subst hc'
      exact fun hk => absurd hk (hwake _ rfl)
  | received hph hreply hc' =>
      subst hc'
      exact fun hk => absurd (hawaits hk).1 hreply

theorem OwnMoves.ready (h : OwnMoves l l' id c c' a) (hready : c.Ready)
    (hpast : c.phase.beforePush = false) (hphase : l'.phase ≠ .dropped)
    (hwake : ∀ e, a = .wakeFails id e → c.kind.isBind = false) : c'.Ready := by
  have hawaits := h.awaits hready.waits hpast hphase fun e ha hk => by
    have hbind := hwake e ha
    rw [hk] at hbind
    cases hbind
  cases h with
  | upgraded hph | refused hph | pushed hph | full hph =>
      rw [hph] at hpast
      cases hpast
  | @released ok hph hkind hphase' hreply =>
      cases ok with
      | false => exact absurd hph hready.entered
      | true =>
          refine ⟨by rw [hphase']; nofun, hawaits, fun _ => ?_⟩
          rw [hphase']
          exact ⟨nofun, nofun⟩
  | waits _ hkind hc' =>
      subst hc'
      exact ⟨nofun, hawaits, fun hk => absurd (hkind.symm.trans hk) nofun⟩
  | rung _ hkind hc' =>
      subst hc'
      exact ⟨nofun, hawaits, fun _ => ⟨nofun, nofun⟩⟩
  | wakeFailed _ hc' =>
      subst hc'
      refine ⟨nofun, hawaits, fun hk => ?_⟩
      have hbind := hwake _ rfl
      rw [show c.kind = .addConnectionAsync from hk] at hbind
      cases hbind
  | received hph hreply hc' =>
      subst hc'
      exact ⟨nofun, hawaits, fun hk => absurd hph (hready.unfailed hk).1⟩

theorem Unstale.nodup_step (h : l.Unstale) (hs : l.fallibleStep a = some l') :
    (l'.handled ++ l'.queue).Nodup := by
  cases (fallibleStep_loop hs).queue with
  | kept _ hqueue hhandled | finished _ _ hqueue hhandled =>
      rw [hqueue, hhandled]
      exact h.nodup
  | @pushed id c hc hph _ _ hqueue hhandled =>
      have hnew : id ∉ l.handled ++ l.queue := by
        intro hin
        obtain ⟨c₀, hc₀, hpast⟩ := h.entered id (List.mem_append.mp hin).symm
        obtain rfl := Option.some.inj (hc.symm.trans hc₀)
        rw [hph] at hpast
        cases hpast
      rw [hqueue, hhandled, ← List.append_assoc]
      exact List.nodup_append.mpr ⟨h.nodup, List.nodup_singleton _, fun id₁ hin id₂ hin₂ heq =>
        hnew (List.mem_singleton.mp hin₂ ▸ heq ▸ hin)⟩
  | taken _ _ hqueue hhandled =>
      have hnodup := h.nodup
      rw [hqueue] at hnodup
      rw [hhandled, List.append_assoc]
      exact hnodup
  | dropped hqueue hhandled =>
      rw [hqueue, hhandled, List.append_nil]
      exact (List.nodup_append.mp h.nodup).1

theorem Unstale.hand_step (h : l.Unstale) (hs : l.fallibleStep a = some l')
    (hphase' : l'.phase = .taken id ∨ ∃ r, l'.phase = .answering id r) : id ∈ l'.handled := by
  have hmono : id ∈ l.handled → id ∈ l'.handled := by
    intro hin
    cases (fallibleStep_loop hs).queue with
    | kept _ _ hhandled | pushed _ _ _ _ _ hhandled | finished _ _ _ hhandled
    | dropped _ hhandled => exact hhandled ▸ hin
    | taken _ _ _ hhandled => exact hhandled ▸ List.mem_append_left _ hin
  rcases hphase' with hphase' | ⟨r, hphase'⟩
  · have hhand : l'.phase.hand = [id] := by rw [hphase']; rfl
    have hold : l.phase.hand = [id] → id ∈ l'.handled := by
      intro hhand
      cases hph : l.phase with
      | taken id' =>
          rw [hph] at hhand
          cases hhand
          exact hmono (h.hand id (Or.inl hph))
      | _ =>
          rw [hph] at hhand
          cases hhand
    cases (fallibleStep_loop hs).queue with
    | kept hsame | pushed _ _ _ hsame => exact hold (hsame ▸ hhand)
    | taken _ hphase _ hhandled =>
        rw [hphase'] at hphase
        cases hphase
        exact hhandled ▸ List.mem_append_right _ (List.mem_singleton_self _)
    | finished _ hnil =>
        rw [hnil] at hhand
        cases hhand
    | dropped _ _ hphase =>
        rw [hphase] at hphase'
        cases hphase'
  · rcases (fallibleStep_loop hs).answering id r hphase' with hphase | hphase
    · exact hmono (h.hand id (Or.inr ⟨r, hphase⟩))
    · exact hmono (h.hand id (Or.inl hphase))

/-- A call that has not pushed its request is not answered. -/
theorem Unstale.unsent_step (h : l.Unstale) (hs : l.fallibleStep a = some l')
    (hc' : l'.calls id = some c') (hbefore : c'.phase.beforePush = true)
    (hkind : c'.kind = .addConnection) : c'.reply = .pending := by
  have hqueued : ∀ c, id ∈ l.queue ∨ id ∈ l.handled → l.calls id = some c →
      c.phase = c'.phase → False := by
    intro c hin hc hph
    obtain ⟨c₀, hc₀, hpast⟩ := h.entered id hin
    obtain rfl := Option.some.inj (hc.symm.trans hc₀)
    rw [hph, hbefore] at hpast
    cases hpast
  cases fallibleStep_calls hs id with
  | same hcall =>
      rw [hc'] at hcall
      obtain ⟨c, hc, heq⟩ := Option.map_eq_some_iff.mp hcall.symm
      obtain ⟨hk, hph, hr⟩ := eq_of_released heq.symm
      rw [hr]
      exact h.unsent id c hc (hph ▸ hbefore) (hk ▸ hkind)
  | @began kind _ _ _ hcall =>
      rw [hc'] at hcall
      cases hcall
      cases kind with
      | addConnection => rfl
      | addConnectionAsync | shutdown | wakeConnection => cases hkind
  | @own c c₁ hc hc₁ hown =>
      rw [hc'] at hc₁
      cases hc₁
      have hbefore₀ : c.phase.beforePush = true := by
        by_contra hpast
        rw [hown.past (Bool.eq_false_iff.mpr hpast)] at hbefore
        cases hbefore
      have hreply := h.unsent id c hc hbefore₀ (hown.kind ▸ hkind)
      cases hown with
      | upgraded _ hc' =>
          subst hc'
          exact hreply
      | refused _ _ hc' | pushed _ _ hc' | full _ _ _ hc' =>
          subst hc'
          cases hbefore
      | released hph | waits hph | rung hph | wakeFailed hph | received hph =>
          rw [hph] at hbefore₀
          cases hbefore₀
  | lost hin _ hcall =>
      obtain ⟨c, hc, rfl⟩ := Option.map_eq_some_iff.mp (hcall.symm.trans hc')
      exact (hqueued c (Or.inl hin) hc rfl).elim
  | answered hat _ _ hc hc₁ _ hphase =>
      rw [hc'] at hc₁
      cases hc₁
      exact (hqueued _ (Or.inr (h.hand id hat)) hc hphase.symm).elim

/-- What the loop will come to has been pushed. -/
theorem Unstale.past (h : l.Unstale) (hin : id ∈ l.pending) :
    ∃ c, l.calls id = some c ∧ c.phase.beforePush = false := by
  refine h.entered id ((List.mem_append.mp hin).symm.imp_right fun hhand => h.hand id (Or.inl ?_))
  cases hph : l.phase with
  | taken id' =>
      rw [hph] at hhand
      rw [List.mem_singleton.mp hhand]
  | _ =>
      rw [hph] at hhand
      cases hhand

/-- The loop does not come back to a request that it has taken. -/
theorem Unstale.not_willPop (h : l.Unstale) (hin : id ∈ l.handled) (hqueue : l'.queue = l.queue)
    (hafter : l'.phase = .popping ∨ l'.phase = .exited) : ¬ l'.WillPop id := by
  intro hwill
  have hmem := hwill.mem
  have hhand : l'.phase.hand = [] := by rcases hafter with hph | hph <;> rw [hph] <;> rfl
  rw [pending, hhand, hqueue] at hmem
  exact (List.nodup_append.mp h.nodup).2.2 id hin id hmem rfl

theorem Unstale.ready_step (h : l.Unstale) (hsettled : l.WakeSettled a)
    (hs : l.fallibleStep a = some l') (hwill' : l'.WillPop id) (hc' : l'.calls id = some c') :
    c'.Ready := by
  rcases willPop_of_step h.fresh hs hwill' with hwill | ⟨c, hc, hph, hpushed⟩
  · obtain ⟨c, hc, hpast⟩ := h.past hwill.mem
    cases fallibleStep_calls hs id with
    | same hcall =>
        rw [hc', hc] at hcall
        obtain ⟨hk, hph, hr⟩ := eq_of_released (Option.some.inj hcall)
        have hready := h.ready id c hwill hc
        exact ⟨hph ▸ hready.entered, fun hkind => hr ▸ hph ▸ hready.waits (hk ▸ hkind),
          hk ▸ hph ▸ hready.unfailed⟩
    | began _ hid => exact absurd (h.fresh.lt hc) (by rw [hid]; exact Nat.lt_irrefl _)
    | @own c₀ c₁ hc₀ hc₁ hown =>
        obtain rfl := Option.some.inj (hc.symm.trans hc₀)
        obtain rfl := Option.some.inj (hc'.symm.trans hc₁)
        refine hown.ready (h.ready id c hwill hc) hpast hwill'.not_dropped ?_
        rintro e rfl
        by_contra hbind
        exact (hsettled c hc (by simpa using hbind)).1 hwill
    | lost _ hphase => exact absurd hphase hwill'.not_dropped
    | answered hat hafter hqueue =>
        exact absurd hwill' (h.not_willPop (h.hand id hat) hqueue hafter)
  · rw [hc'] at hpushed
    cases hpushed
    refine ⟨nofun, fun hk => ⟨h.unsent id c hc (by rw [hph]; rfl) hk, rfl⟩,
      fun _ => ⟨nofun, nofun⟩⟩

theorem Unstale.awaits_step (h : l.Unstale) (hsettled : l.WakeSettled a)
    (hs : l.fallibleStep a = some l') {r : Except IoError Token}
    (hphase' : l'.phase = .answering id r) (hc' : l'.calls id = some c') : c'.Awaits := by
  have hat := (fallibleStep_loop hs).answering id r hphase'
  have hin : id ∈ l.handled := h.hand id (hat.symm.imp_right fun hph => ⟨r, hph⟩)
  obtain ⟨c, hc, hpast⟩ := h.entered id (Or.inr hin)
  have hawaits : c.Awaits := by
    rcases hat with hph | hph
    · exact h.awaits id r c hph hc
    · exact (h.ready id c (willPop_taken hph) hc).waits
  cases fallibleStep_calls hs id with
  | same hcall =>
      rw [hc', hc] at hcall
      obtain ⟨hk, hph, hr⟩ := eq_of_released (Option.some.inj hcall)
      exact fun hkind => hr ▸ hph ▸ hawaits (hk ▸ hkind)
  | began _ hid => exact absurd (h.fresh.lt hc) (by rw [hid]; exact Nat.lt_irrefl _)
  | @own c₀ c₁ hc₀ hc₁ hown =>
      obtain rfl := Option.some.inj (hc.symm.trans hc₀)
      obtain rfl := Option.some.inj (hc'.symm.trans hc₁)
      refine hown.awaits hawaits hpast (by rw [hphase']; nofun) ?_
      rintro e rfl hk
      obtain ⟨hno, hsent⟩ := hsettled c hc (by rw [hk]; rfl)
      rcases hat with hph | hph
      · exact hsent hk r hph
      · exact hno (willPop_taken hph)
  | lost _ hphase =>
      rw [hphase] at hphase'
      cases hphase'
  | answered _ hafter =>
      rcases hafter with hph | hph <;> rw [hph] at hphase' <;> cases hphase'

theorem step_unstale (h : l.Unstale) (hsettled : l.WakeSettled a)
    (hs : l.fallibleStep a = some l') : l'.Unstale where
  fresh := fresh_step h.fresh hs
  entered := entered_step h.fresh hs h.entered
  hand _ hphase := h.hand_step hs hphase
  nodup := h.nodup_step hs
  unsent _ _ hc' hbefore hkind := h.unsent_step hs hc' hbefore hkind
  ready _ _ hwill' hc' := h.ready_step hsettled hs hwill' hc'
  awaits _ _ _ hphase' hc' := h.awaits_step hsettled hs hphase' hc'

/-! ## What is installed, and what panics -/

theorem dropQueue_connections (l : SharedLoop) : l.dropQueue.connections = l.connections := by
  rcases dropQueue_cases l with hkept | ⟨-, -, hdropped⟩
  · rw [hkept]
  · rw [hdropped]

theorem handleToken_connections {token t : Token} {done : Bool} {conn : LoopConnection}
    (ht : (l.handleToken token done).connections t = some conn) : l.connections t = some conn := by
  unfold handleToken at ht
  split at ht
  · exact ht
  · split at ht
    · unfold remove at ht
      split at ht
      · exact (Slab.of_remove ht).2
      · exact (Slab.of_remove ht).2
    · exact ht

theorem answer_connections (l : SharedLoop) (id : RequestId) (c : HandleCall)
    (r : Except IoError Token) : (l.answer id c r).connections = l.connections := by
  unfold answer
  split <;> rfl

theorem addTaken_connections {out : PopOutcome} {t : Token} {conn : LoopConnection}
    (hs : l.addTaken id c out = some l') (ht : l'.connections t = some conn) :
    l.connections t = some conn ∨ conn.id = id := by
  unfold addTaken at hs
  split at hs
  · cases hs
  · split at hs
    · cases hs
      exact Or.inl ht
    · split at hs <;> cases hs
      · exact Or.inl ht
      · rcases Slab.insert_cases ht with ⟨-, rfl⟩ | ⟨-, hold⟩
        · exact Or.inr rfl
        · exact Or.inl hold

/-- What a step installs is the pipe of the bind it handles. -/
theorem fallibleStep_connections (hs : l.fallibleStep a = some l') {t : Token}
    {conn : LoopConnection} (ht : l'.connections t = some conn) :
    l.connections t = some conn ∨ (l.phase = .taken conn.id ∧
      ∃ c, l.calls conn.id = some c ∧ c.kind.isBind = true) := by
  cases a with
  | shared a =>
      obtain ⟨hne, hs⟩ := fallibleStep_shared hs
      cases step_cases hs with
      | called | polled | handledEvents | woken => exact Or.inl ht
      | upgraded =>
          unfold upgrade at ht
          split at ht <;> exact Or.inl ht
      | pushed =>
          unfold push at ht
          split at ht <;> exact Or.inl ht
      | released =>
          rw [release, dropQueue_connections] at ht
          exact Or.inl ht
      | rung =>
          unfold ring at ht
          split at ht <;> exact Or.inl ht
      | received _ _ hrecv =>
          unfold recv at hrecv
          split at hrecv <;> cases hrecv <;> exact Or.inl ht
      | event =>
          have hold := handleToken_connections ht
          exact Or.inl hold
      | dropped =>
          rw [dropLoop, dropQueue_connections] at ht
          cases ht
      | @emptied out | @popped out => exact absurd rfl (hne out)
  | take =>
      simp only [fallibleStep] at hs
      split at hs <;> cases hs <;> exact Or.inl ht
  | handle out =>
      simp only [fallibleStep] at hs
      split at hs
      · rename_i id hph
        obtain ⟨c, hc, hs⟩ := Option.bind_eq_some_iff.mp hs
        have hadd : l.addTaken id c out = some l' → c.kind.isBind = true →
            l.connections t = some conn ∨ (l.phase = .taken conn.id ∧
              ∃ c, l.calls conn.id = some c ∧ c.kind.isBind = true) := by
          intro hs hbind
          rcases addTaken_connections hs ht with hold | rfl
          · exact Or.inl hold
          · exact Or.inr ⟨hph, c, hc, hbind⟩
        unfold handleTaken at hs
        split at hs
        · rename_i hkind
          exact hadd hs (by rw [hkind]; rfl)
        · rename_i hkind
          exact hadd hs (by rw [hkind]; rfl)
        · cases hs
          exact Or.inl ht
        · cases hs
          have hold := handleToken_connections ht
          exact Or.inl hold
      · cases hs
  | answer =>
      simp only [fallibleStep] at hs
      split at hs
      · obtain ⟨c, hc, rfl⟩ := Option.map_eq_some_iff.mp hs
        rw [answer_connections] at ht
        exact Or.inl ht
      · cases hs
  | wakeFails id e =>
      simp only [fallibleStep] at hs
      split at hs <;> cases hs
      unfold wakeFails at ht
      split at ht <;> exact Or.inl ht
  | pollFails =>
      simp only [fallibleStep] at hs
      split at hs <;> cases hs
      exact Or.inl ht

theorem answer_phase (h : c.Awaits) (r : Except IoError Token) :
    (l.answer id c r).phase = l.phase := by
  unfold answer
  split
  · rename_i hkind hph
    have hawaits := (h hkind).2
    rw [hph] at hawaits
    cases hawaits
  · rfl

theorem handleTaken_runs {out : PopOutcome} (hno : c.kind ≠ .shutdown) (hkey : out.key < 2 ^ 63)
    (hs : l.handleTaken id c out = some l') : l'.phase.runs = true := by
  have hadd : l.addTaken id c out = some l' → l'.phase.runs = true := by
    intro hs
    unfold addTaken at hs
    split at hs
    · cases hs
    · split at hs
      · rename_i hwake
        rw [hwake] at hkey
        exact absurd hkey (by decide)
      · split at hs <;> cases hs <;> rfl
  unfold handleTaken at hs
  split at hs
  · exact hadd hs
  · exact hadd hs
  · rename_i hkind
    exact absurd hkind hno
  · cases hs
    rw [(handleToken_alike ..).phase]
    rfl

theorem Unstale.handles_runs (h : l.Unstale) (hkey : a.SlabKey)
    (hs : l.fallibleStep a = some l') (hhandles : a.handles = true)
    (hno : ∀ id ∈ l.phase.hand, l.NoShutdown id) : l'.phase.runs = true := by
  cases a with
  | shared | wakeFails | pollFails => cases hhandles
  | take =>
      simp only [fallibleStep] at hs
      split at hs <;> cases hs <;> rfl
  | handle out =>
      simp only [fallibleStep] at hs
      split at hs
      · rename_i id hph
        obtain ⟨c, hc, hs⟩ := Option.bind_eq_some_iff.mp hs
        have hkind := hno id (by rw [hph]; exact List.mem_singleton_self _) c hc
        exact handleTaken_runs hkind (hkey _ rfl) hs
      · cases hs
  | answer =>
      simp only [fallibleStep] at hs
      split at hs
      · rename_i id r hph
        obtain ⟨c, hc, rfl⟩ := Option.map_eq_some_iff.mp hs
        rw [answer_phase (h.awaits id r c hph hc)]
        rfl
      · cases hs

theorem Unstale.harmless (h : l.Unstale) (hkey : a.SlabKey) : l.Harmless a := by
  refine fun l' hs => ⟨fun t conn c e ht hc hph => ?_, h.handles_runs hkey hs⟩
  rcases fallibleStep_connections hs ht with hold | ⟨hphase, c₀, hc₀, hbind⟩
  · exact hold
  · obtain rfl := Option.some.inj (hc.symm.trans hc₀)
    exact absurd hph ((h.ready conn.id c (willPop_taken hphase) hc).notFailed hbind e)

/-- In every run in which no bind's wake fails before the loop has done with
its request, the binds that return `Err` have no effect on the loop. -/
theorem failed_binds {as : List FallibleAction} (hkeys : ∀ a ∈ as, a.SlabKey)
    (hsettled : Lts.Within fallibleStep WakeSettled new as) :
    Lts.Within fallibleStep Harmless new as :=
  Lts.Within.imp_of_within_invariant
    (fun _ _ _ hunstale hG hs => step_unstale hunstale hG.1 hs)
    (fun _ _ hunstale hG => hunstale.harmless hG.2) unstale_new
    (hsettled.and (Lts.within_of_forall (fun _ a hin => hkeys a hin) new))

/-- Another caller's wake brings the loop to its requests. -/
def turnToRequests : List FallibleAction :=
  [.shared (.poll [WAKE_TOKEN]), .shared (.event false), .shared (.event false)]

def pushRequest (kind : CallKind) (id : RequestId) : List FallibleAction :=
  [.shared (.call kind), .shared (.upgrade id), .shared (.push id), .shared (.release id)]

/-- The wake of one bind fails when it has been answered, that of another when
its connection is in the slab. -/
def settledBinds : List FallibleAction :=
  pushRequest .addConnection 0 ++ pushRequest .addConnectionAsync 1 ++ turnToRequests ++
    [.take, .handle ⟨0, .error (.os 12), false⟩, .answer, .wakeFails 0 (.os 12),
      .take, .handle ⟨0, .ok (), false⟩, .wakeFails 1 (.os 12), .answer]

theorem failed_binds_run : Lts.Within fallibleStep Harmless new settledBinds ∧
    (Lts.runs fallibleStep new settledBinds).map (fun l => (l.connections 0).map (·.id)) =
      some (some 1) := by
  refine ⟨failed_binds (by decide) ?_, by decide +kernel⟩
  -- up to the first wake that fails
  iterate 14
    refine ⟨trivial, fun _ hs => ?_⟩
    cases hs
  refine ⟨fun c hc _ => ⟨fun hwill => ?_, fun _ _ => nofun⟩, fun _ hs => ?_⟩
  · cases List.mem_singleton.mp hwill.mem
  cases hs
  iterate 2
    refine ⟨trivial, fun _ hs => ?_⟩
    cases hs
  refine ⟨fun c hc _ => ⟨fun hwill => absurd hwill.mem List.not_mem_nil, fun hkind => ?_⟩,
    fun _ hs => ?_⟩
  · cases hc
    cases hkind
  cases hs
  exact ⟨trivial, fun _ _ => trivial⟩

theorem not_harmless {as : List FallibleAction} (t : Token) (conn : LoopConnection) {e : IoError}
    (hrun : Lts.runs fallibleStep new as = some l) (hs : l.fallibleStep a = some l')
    (hc : l.calls conn.id = some c) (hph : c.phase = .returned (.error e))
    (hvacant : l.connections t = none) (ht : l'.connections t = some conn) :
    ¬ Lts.Within fallibleStep Harmless new (as ++ [a]) := by
  intro h
  have hold := (((Lts.within_append.mp h).2 l hrun).1 l' hs).1 t conn c e ht hc hph
  rw [hvacant] at hold
  cases hold

/-- The wake of a bind fails, and the loop comes to its request afterwards. -/
def staleBind (kind : CallKind) : List FallibleAction :=
  pushRequest kind 0 ++ [.wakeFails 0 (.os 12)] ++ turnToRequests ++ [.take]

/-- The loop has taken the request when the wake fails. -/
def overtakenBind (kind : CallKind) : List FallibleAction :=
  pushRequest kind 0 ++ turnToRequests ++ [.take, .wakeFails 0 (.os 12)]

/-- The loop installs the connection although the bind has returned `Err`, and
if the caller waited for the answer, panics. -/
def TakesEffect (bind : CallKind → List FallibleAction) : Prop :=
  (¬ Lts.Within fallibleStep Harmless new
    (bind .addConnection ++ [.handle ⟨0, .ok (), false⟩]) ∧
    (Lts.runs fallibleStep new (bind .addConnection ++
      [.handle ⟨0, .ok (), false⟩, .answer])).map (·.phase) = some .exited) ∧
  (¬ Lts.Within fallibleStep Harmless new
    (bind .addConnectionAsync ++ [.handle ⟨0, .ok (), false⟩]) ∧
    (Lts.runs fallibleStep new (bind .addConnectionAsync ++
      [.handle ⟨0, .ok (), false⟩, .answer])).map (·.phase) = some .popping)

theorem failed_binds_take_effect : TakesEffect staleBind ∧ TakesEffect overtakenBind :=
  ⟨⟨⟨not_harmless 0 ⟨0, 0⟩ rfl rfl rfl rfl rfl rfl, rfl⟩,
    ⟨not_harmless 0 ⟨0, 0⟩ rfl rfl rfl rfl rfl rfl, rfl⟩⟩,
   ⟨⟨not_harmless 0 ⟨0, 0⟩ rfl rfl rfl rfl rfl rfl, rfl⟩,
    ⟨not_harmless 0 ⟨0, 0⟩ rfl rfl rfl rfl rfl rfl, rfl⟩⟩⟩

end SharedLoop

end Audioipc

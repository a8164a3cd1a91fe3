import Audioipc.SharedSteps

/-!
# Wakes and polls that fail

`SharedLoop.step` with two more ends: `Waker::wake` may return `Err` to the
caller that has pushed its request, and `Poll::poll` may return `Err` to the
loop.

A caller whose wake fails leaves, and takes the receiver of the answer with
it. So it matters here when it leaves, and a request is handled in three
steps: the loop takes it, handles it, and answers the caller. In a row they
are the one step of `SharedLoop.step` (`step_runs`), which is all that callers
can tell of them as long as they stay.

A call whose wake fails returns and leaves its request in the queue, so less
holds of the calls here than in `SharedSteps`. What a step does is said once,
of the loop with its queue (`fallibleStep_loop`) and of each call
(`fallibleStep_calls`); nothing after these looks at `step` for it.
-/

namespace Audioipc

/-- `take`, `handle` and `answer` are `self.requests.pop()`, what is done about
the request, and `tx.send(r).expect(..)`. In the last two `Waker::wake`
returns `Err` to the caller, and `Poll::poll` to the loop. -/
inductive FallibleAction where
  | shared (a : SharedAction)
  | take
  | handle (out : PopOutcome)
  | answer
  | wakeFails (id : RequestId) (e : IoError)
  | pollFails

/-- A reference to the queue is dropped. -/
def FallibleAction.releases : FallibleAction → Bool
  | .shared (.release _) | .shared .drop => true
  | _ => false

/-- The request that the loop has in its hand. -/
def SharedPhase.hand : SharedPhase → List RequestId
  | .taken id => [id]
  | _ => []

namespace SharedLoop

/-- `self.waker.wake()`, if it fails. -/
def wakeFails (l : SharedLoop) (id : RequestId) (c : HandleCall) (e : IoError) : SharedLoop :=
  match c.kind with
  -- `wake_connection` only logs the error
  | .wakeConnection _ => l.setCall id { c with phase := .returned (.ok none) }
  | _ => l.setCall id { c with phase := .returned (.error e) }

/-- `EventLoop::add_connection`; the key is a vacant one. -/
def addTaken (l : SharedLoop) (id : RequestId) (c : HandleCall) (out : PopOutcome) :
    Option SharedLoop :=
  if (l.connections out.key).isSome then none
  else if out.key = WAKE_TOKEN then some { l.setCall id c.lost with phase := .exited }
  else
    match out.register with
    | .error e => some { l.setCall id c.released with phase := .answering id (.error e) }
    | .ok () =>
        let conn : LoopConnection := ⟨id, out.key⟩
        some { l.setCall id { c with place := .connection } with
          phase := .answering id (.ok out.key)
          connections := Function.update l.connections out.key (some conn)
          registry := conn :: l.registry
          inserted := conn :: l.inserted }

def handleTaken (l : SharedLoop) (id : RequestId) (c : HandleCall) (out : PopOutcome) :
    Option SharedLoop :=
  match c.kind with
  | .addConnection | .addConnectionAsync => l.addTaken id c out
  | .shutdown => some { l with phase := .exited }
  | .wakeConnection token => some ({ l with phase := .popping }.handleToken token out.done)

def fallibleStep (l : SharedLoop) : FallibleAction → Option SharedLoop
  | .shared (.pop _) => none
  | .shared a => l.step a
  | .take =>
      match l.phase, l.queue with
      | .popping, [] => some { l with phase := .polling }
      | .popping, id :: queue =>
          some { l with phase := .taken id, queue, handled := l.handled ++ [id] }
      | _, _ => none
  | .handle out =>
      match l.phase with
      | .taken id => (l.calls id).bind fun c => l.handleTaken id c out
      | _ => none
  | .answer =>
      match l.phase with
      | .answering id r => (l.calls id).map fun c => { l with phase := .popping }.answer id c r
      | _ => none
  | .wakeFails id e =>
      match l.calls id with
      | some ⟨kind, .ringing, reply, place⟩ =>
          some (l.wakeFails id ⟨kind, .ringing, reply, place⟩ e)
      | _ => none
  | .pollFails =>
      match l.phase with
      | .polling => some { l with phase := .exited }
      | _ => none

/-- The requests that the loop has still to handle. -/
def pending (l : SharedLoop) : List RequestId := l.phase.hand ++ l.queue

variable {l l' : SharedLoop} {id : RequestId} {c c' : HandleCall} {a : FallibleAction}

/-- What a step does to the queue, and to what the loop has in its hand. -/
inductive QueueMoves (l l' : SharedLoop) : FallibleAction → Prop
  | kept {a : FallibleAction} (hhand : l'.phase.hand = l.phase.hand) (hqueue : l'.queue = l.queue)
      (hhandled : l'.handled = l.handled) : QueueMoves l l' a
  | pushed {id : RequestId} {c : HandleCall} (hc : l.calls id = some c)
      (hph : c.phase = .upgraded) (hc' : l'.calls id = some c.enqueued)
      (hhand : l'.phase.hand = l.phase.hand) (hqueue : l'.queue = l.queue ++ [id])
      (hhandled : l'.handled = l.handled) : QueueMoves l l' (.shared (.push id))
  | taken {id : RequestId} (hhand : l.phase.hand = []) (hphase : l'.phase = .taken id)
      (hqueue : l.queue = id :: l'.queue) (hhandled : l'.handled = l.handled ++ [id]) :
      QueueMoves l l' .take
  | finished {id : RequestId} {out : PopOutcome} (hphase : l.phase = .taken id)
      (hhand : l'.phase.hand = []) (hqueue : l'.queue = l.queue)
      (hhandled : l'.handled = l.handled) (hruns : l'.phase.runs = true → l.NoShutdown id) :
      QueueMoves l l' (.handle out)
  | dropped {a : FallibleAction} (hqueue : l'.queue = []) (hhandled : l'.handled = l.handled)
      (hphase : l'.phase = .dropped) (hstrong : l'.strong = 0) (ha : a.releases = true) :
      QueueMoves l l' a

/-- What a step does to the loop, which does not come back, and its queue. -/
structure LoopMoves (l l' : SharedLoop) (a : FallibleAction) : Prop where
  runs : l'.phase.runs = true → l.phase.runs = true
  answering : ∀ id r, l'.phase = .answering id r → l.phase = .answering id r ∨ l.phase = .taken id
  queue : QueueMoves l l' a
  next : l.next ≤ l'.next

/-- What a step of a call does to it. -/
inductive OwnMoves (l l' : SharedLoop) (id : RequestId) (c c' : HandleCall) : FallibleAction → Prop
  | upgraded (hph : c.phase = .start) (hc' : c' = { c with phase := .upgraded }) :
      OwnMoves l l' id c c' (.shared (.upgrade id))
  | refused (hph : c.phase = .start) (hphase : l.phase = .dropped)
      (hc' : c' = { c.lost with phase := .returned c.failure }) :
      OwnMoves l l' id c c' (.shared (.upgrade id))
  | pushed (hph : c.phase = .upgraded) (hin : id ∈ l'.queue) (hc' : c' = c.enqueued) :
      OwnMoves l l' id c c' (.shared (.push id))
  | full (hph : c.phase = .upgraded) (hfull : EVENT_LOOP_INITIAL_CLIENTS ≤ l.queue.length)
      (hqueue : l'.queue = l.queue) (hc' : c' = { c.lost with phase := .pushed false }) :
      OwnMoves l l' id c c' (.shared (.push id))
  | released {ok : Bool} (hph : c.phase = .pushed ok) (hkind : c'.kind = c.kind)
      (hphase : c'.phase = if ok then .ringing else .returned c.failure)
      (hreply : l'.phase ≠ .dropped → c'.reply = c.reply) :
      OwnMoves l l' id c c' (.shared (.release id))
  | waits (hph : c.phase = .ringing) (hkind : c.kind = .addConnection)
      (hc' : c' = { c with phase := .waiting }) : OwnMoves l l' id c c' (.shared (.ring id))
  | rung (hph : c.phase = .ringing) (hkind : c.kind ≠ .addConnection)
      (hc' : c' = { c with phase := .returned (.ok none) }) :
      OwnMoves l l' id c c' (.shared (.ring id))
  | wakeFailed {e : IoError} {r : Except IoError (Option Token)} (hph : c.phase = .ringing)
      (hc' : c' = { c with phase := .returned r }) : OwnMoves l l' id c c' (.wakeFails id e)
  | received {r : Except IoError (Option Token)} (hph : c.phase = .waiting)
      (hreply : c.reply ≠ .pending) (hc' : c' = { c with phase := .returned r }) :
      OwnMoves l l' id c c' (.shared (.recv id))

/-- What a step does to a call: it may change the `same` call only in the
place of the pipe and the driver, and a call is `lost` with the queue. -/
inductive CallMoves (l l' : SharedLoop) (a : FallibleAction) (id : RequestId) : Prop
  | same (hcall : (l'.calls id).map HandleCall.released = (l.calls id).map HandleCall.released)
  | began {kind : CallKind} (ha : a = .shared (.call kind)) (hid : id = l.next)
      (hnext : l'.next = l.next + 1) (hcall : l'.calls id = some (.new kind))
  | own {c c' : HandleCall} (hc : l.calls id = some c) (hc' : l'.calls id = some c')
      (hown : OwnMoves l l' id c c' a)
  | lost (hin : id ∈ l.queue) (hphase : l'.phase = .dropped)
      (hcall : l'.calls id = (l.calls id).map .lost)
  | answered {c c' : HandleCall} (hat : l.phase = .taken id ∨ ∃ r, l.phase = .answering id r)
      (hafter : l'.phase = .popping ∨ l'.phase = .exited) (hqueue : l'.queue = l.queue)
      (hc : l.calls id = some c)
      (hc' : l'.calls id = some c') (hkind : c'.kind = c.kind) (hphase : c'.phase = c.phase)

/-! ## What the parts of a step do -/

theorem eq_of_released (h : c'.released = c.released) :
    c'.kind = c.kind ∧ c'.phase = c.phase ∧ c'.reply = c.reply := by
  obtain ⟨kind, phase, reply, place⟩ := c
  obtain ⟨kind', phase', reply', place'⟩ := c'
  cases h
  exact ⟨rfl, rfl, rfl⟩

theorem dropQueue_cases (l : SharedLoop) :
    l.dropQueue = l ∨ (l.strong = 0 ∧ l.phase = .dropped ∧ l.dropQueue = { l with
      queue := []
      calls := fun id => if id ∈ l.queue then (l.calls id).map .lost else l.calls id }) := by
  unfold dropQueue
  split
  · rename_i hzero
    refine Or.inr ⟨hzero, ?_, rfl⟩
    by_contra hphase
    exact absurd hzero (Nat.ne_of_gt (strong_pos hphase))
  · exact Or.inl rfl

theorem dropQueue_call (l : SharedLoop) (id : RequestId) : l.dropQueue.calls id = l.calls id ∨
    (id ∈ l.queue ∧ l.dropQueue.phase = .dropped ∧
      l.dropQueue.calls id = (l.calls id).map .lost) := by
  rcases dropQueue_cases l with hkept | ⟨-, hphase, hdropped⟩
  · exact Or.inl (by rw [hkept])
  · rw [hdropped]
    by_cases hin : id ∈ l.queue
    · exact Or.inr ⟨hin, hphase, if_pos hin⟩
    · exact Or.inl (if_neg hin)

/-- Only places change, in the calls. -/
structure Alike (l l' : SharedLoop) : Prop where
  calls : ∀ id, (l'.calls id).map HandleCall.released = (l.calls id).map HandleCall.released
  queue : l'.queue = l.queue
  handled : l'.handled = l.handled
  phase : l'.phase = l.phase
  next : l'.next = l.next

theorem handleToken_alike (l : SharedLoop) (token : Token) (done : Bool) :
    Alike l (l.handleToken token done) := by
  unfold handleToken
  split
  · exact ⟨fun _ => rfl, rfl, rfl, rfl, rfl⟩
  · rename_i conn _
    split
    · unfold remove
      dsimp only
      split
      · exact ⟨fun _ => rfl, rfl, rfl, rfl, rfl⟩
      · rename_i c hc
        refine ⟨fun id => ?_, rfl, rfl, rfl, rfl⟩
        by_cases hid : id = conn.id
        · simp only [hid, setCall, Function.update_self, hc]
          rfl
        · simp only [setCall, Function.update_of_ne hid]
    · exact ⟨fun _ => rfl, rfl, rfl, rfl, rfl⟩

theorem answer_calls (l : SharedLoop) (id : RequestId) (c : HandleCall)
    (r : Except IoError Token) : (∀ id' ≠ id, (l.answer id c r).calls id' = l.calls id') ∧
      ∃ c', (l.answer id c r).calls id = some c' ∧ c'.kind = c.kind ∧ c'.phase = c.phase := by
  unfold answer
  split
  · exact ⟨fun _ hne => Function.update_of_ne hne .., c, Function.update_self .., rfl, rfl⟩
  · refine ⟨fun _ hne => Function.update_of_ne hne .., _, Function.update_self .., ?_⟩
    unfold HandleCall.answered
    split <;> exact ⟨rfl, rfl⟩

theorem answer_loop (l : SharedLoop) (id : RequestId) (c : HandleCall)
    (r : Except IoError Token) : (l.answer id c r).queue = l.queue ∧
      (l.answer id c r).handled = l.handled ∧ (l.answer id c r).next = l.next ∧
      ((l.answer id c r).phase = l.phase ∨ (l.answer id c r).phase = .exited) := by
  unfold answer
  split
  · exact ⟨rfl, rfl, rfl, Or.inr rfl⟩
  · exact ⟨rfl, rfl, rfl, Or.inl rfl⟩

/-- A request is handled, up to the answer. -/
structure Handles (l l' : SharedLoop) (id : RequestId) (c : HandleCall) : Prop where
  calls : ∀ id', (l'.calls id').map HandleCall.released = (l.calls id').map HandleCall.released ∨
    (id' = id ∧ l'.calls id = some c.lost ∧ l'.phase = .exited)
  hand : l'.phase.hand = []
  answering : ∀ id' r, l'.phase = .answering id' r → id' = id
  queue : l'.queue = l.queue
  handled : l'.handled = l.handled
  next : l'.next = l.next
  runs : l'.phase.runs = true → c.kind ≠ .shutdown

theorem released_setCall (hc : l.calls id = some c) (place : Place) (id' : RequestId) :
    ((l.setCall id { c with place }).calls id').map HandleCall.released =
      (l.calls id').map HandleCall.released := by
  by_cases hid : id' = id
  · subst hid
    simp only [setCall, Function.update_self, hc]
    rfl
  · simp only [setCall, Function.update_of_ne hid]

theorem addTaken_handles {out : PopOutcome} (hc : l.calls id = some c)
    (hkind : c.kind ≠ .shutdown) (hs : l.addTaken id c out = some l') : Handles l l' id c := by
  unfold addTaken at hs
  split at hs
  · cases hs
  · split at hs
    · cases hs
      refine ⟨fun id' => ?_, rfl, nofun, rfl, rfl, rfl, fun _ => hkind⟩
      by_cases hid : id' = id
      · exact Or.inr ⟨hid, Function.update_self .., rfl⟩
      · exact Or.inl (by simp only [setCall, Function.update_of_ne hid])
    · split at hs <;> cases hs
      · exact ⟨fun id' => Or.inl (released_setCall hc _ id'), rfl,
          fun _ _ h => (by cases h; rfl), rfl, rfl, rfl, fun _ => hkind⟩
      · exact ⟨fun id' => Or.inl (released_setCall hc _ id'), rfl,
          fun _ _ h => (by cases h; rfl), rfl, rfl, rfl, fun _ => hkind⟩

theorem handleTaken_handles {out : PopOutcome} (hc : l.calls id = some c)
    (hs : l.handleTaken id c out = some l') : Handles l l' id c := by
  unfold handleTaken at hs
  split at hs
  · rename_i hkind
    exact addTaken_handles hc (by rw [hkind]; nofun) hs
  · rename_i hkind
    exact addTaken_handles hc (by rw [hkind]; nofun) hs
  · cases hs
    exact ⟨fun _ => Or.inl rfl, rfl, nofun, rfl, rfl, rfl, fun h => by cases h⟩
  · rename_i token hkind
    cases hs
    have h := handleToken_alike { l with phase := .popping } token out.done
    exact ⟨fun id' => Or.inl (h.calls id'), by rw [h.phase]; rfl,
      fun _ _ hans => (by rw [h.phase] at hans; cases hans), h.queue, h.handled, h.next,
      fun _ => by rw [hkind]; nofun⟩

/-! ## What a step does -/

/-- A step of `SharedLoop.step`, which does not pop. -/
theorem fallibleStep_shared {a : SharedAction} (hs : l.fallibleStep (.shared a) = some l') :
    (∀ out, a ≠ .pop out) ∧ l.step a = some l' := by
  cases a with
  | pop out => cases hs
  | _ => exact ⟨nofun, hs⟩

theorem LoopMoves.kept (hphase : l'.phase = l.phase) (hqueue : l'.queue = l.queue)
    (hhandled : l'.handled = l.handled) (hnext : l.next ≤ l'.next) : LoopMoves l l' a :=
  ⟨fun hruns => hphase ▸ hruns, fun _ _ h => Or.inl (hphase ▸ h),
    .kept (by rw [hphase]) hqueue hhandled, hnext⟩

/-- If the queue is dropped, so is the loop. -/
theorem LoopMoves.dropQueue (h : LoopMoves l l' a) (hhandled : l'.handled = l.handled)
    (ha : a.releases = true) : LoopMoves l l'.dropQueue a := by
  rcases dropQueue_cases l' with hkept | ⟨hstrong, hphase, hdropped⟩
  · rw [hkept]
    exact h
  · rw [hdropped]
    exact ⟨h.runs, h.answering, .dropped rfl hhandled hphase hstrong ha, h.next⟩

theorem fallibleStep_loop (hs : l.fallibleStep a = some l') : LoopMoves l l' a := by
  cases a with
  | shared a =>
      obtain ⟨hne, hs⟩ := fallibleStep_shared hs
      cases step_cases hs with
      | called => exact .kept rfl rfl rfl (Nat.le_succ _)
      | upgraded =>
          unfold upgrade
          split <;> exact .kept rfl rfl rfl (Nat.le_refl _)
      | pushed hc hph =>
          unfold push
          split
          · exact ⟨fun hruns => hruns, fun _ _ h => Or.inl h,
              .pushed hc hph (Function.update_self ..) rfl rfl rfl, Nat.le_refl _⟩
          · exact .kept rfl rfl rfl (Nat.le_refl _)
      | @released id c ok =>
          let l₁ : SharedLoop := { l.setCall id { c with
              phase := if ok then .ringing else .returned c.failure } with
            pushing := l.pushing.erase id }
          have hmoves : LoopMoves l l₁ (.shared (.release id)) :=
            .kept rfl rfl rfl (Nat.le_refl _)
          exact hmoves.dropQueue rfl rfl
      | rung =>
          unfold ring
          split <;> exact .kept rfl rfl rfl (Nat.le_refl _)
      | received _ _ hrecv =>
          unfold recv at hrecv
          split at hrecv <;> cases hrecv <;> exact .kept rfl rfl rfl (Nat.le_refl _)
      | polled hph | handledEvents hph | woken hph =>
          exact ⟨fun _ => by rw [hph]; rfl, nofun, .kept (by rw [hph]; rfl) rfl rfl, Nat.le_refl _⟩
      | @event done token es hph =>
          have h := handleToken_alike { l with phase := .events es } token done
          exact ⟨fun _ => by rw [hph]; rfl, fun _ _ hans => (by rw [h.phase] at hans; cases hans),
            .kept (by rw [h.phase, hph]; rfl) h.queue h.handled, Nat.le_of_eq h.next.symm⟩
      | @emptied out | @popped out => exact absurd rfl (hne out)
      | dropped hph =>
          let l₁ : SharedLoop := { l with
            phase := .dropped
            connections := fun _ => none
            registry := []
            calls := fun id => (l.calls id).map .disconnected }
          have hmoves : LoopMoves l l₁ (.shared .drop) :=
            ⟨fun hruns => (by cases hruns), nofun, .kept (by rw [hph]; rfl) rfl rfl,
              Nat.le_refl _⟩
          exact hmoves.dropQueue rfl rfl
  | take =>
      simp only [fallibleStep] at hs
      split at hs <;> cases hs
      · rename_i hph _
        exact ⟨fun _ => by rw [hph]; rfl, nofun, .kept (by rw [hph]; rfl) rfl rfl, Nat.le_refl _⟩
      · rename_i hph hqueue
        exact ⟨fun _ => by rw [hph]; rfl, nofun, .taken (by rw [hph]; rfl) rfl hqueue rfl,
          Nat.le_refl _⟩
  | handle out =>
      simp only [fallibleStep] at hs
      split at hs
      · rename_i id hph
        obtain ⟨c, hc, hs⟩ := Option.bind_eq_some_iff.mp hs
        have h := handleTaken_handles hc hs
        refine ⟨fun _ => by rw [hph]; rfl, fun id' r hans => Or.inr (hph.trans ?_),
          .finished hph h.hand h.queue h.handled fun hruns c₁ hc₁ => ?_, Nat.le_of_eq h.next.symm⟩
        · rw [h.answering id' r hans]
        · obtain rfl := Option.some.inj (hc.symm.trans hc₁)
          exact h.runs hruns
      · cases hs
  | answer =>
      simp only [fallibleStep] at hs
      split at hs
      · rename_i id r hph
        obtain ⟨c, hc, rfl⟩ := Option.map_eq_some_iff.mp hs
        obtain ⟨hqueue, hhandled, hnext, hphase⟩ :=
          answer_loop { l with phase := .popping } id c r
        refine ⟨fun _ => by rw [hph]; rfl, fun _ _ hans => ?_, .kept ?_ hqueue hhandled,
          Nat.le_of_eq hnext.symm⟩
        · rcases hphase with hphase | hphase <;> rw [hphase] at hans <;> cases hans
        · rcases hphase with hphase | hphase <;> rw [hphase, hph] <;> rfl
      · cases hs
  | wakeFails id e =>
      simp only [fallibleStep] at hs
      split at hs <;> cases hs
      unfold wakeFails
      split <;> exact .kept rfl rfl rfl (Nat.le_refl _)
  | pollFails =>
      simp only [fallibleStep] at hs
      split at hs <;> cases hs
      rename_i hph
      exact ⟨fun hruns => (by cases hruns), nofun, .kept (by rw [hph]; rfl) rfl rfl,
        Nat.le_refl _⟩

/-! ## The steps of `SharedLoop.step` -/

theorem answer_setCall (l : SharedLoop) (id : RequestId) (c c' : HandleCall)
    (r : Except IoError Token) : (l.setCall id c').answer id c r = l.answer id c r := by
  unfold answer
  split <;> simp only [setCall, Function.update_idem]

theorem runs_step {as : List FallibleAction} {l₁ : SharedLoop}
    (hs : l.fallibleStep a = some l₁) (hrun : Lts.runs fallibleStep l₁ as = some l') :
    Lts.runs fallibleStep l (a :: as) = some l' :=
  Lts.runs_cons_eq_some.mpr ⟨l₁, hs, hrun⟩

/-- An `AddConnection` that is handled and answered in a row. -/
theorem addConnection_runs {out : PopOutcome} (hph : l.phase = .taken id)
    (hc : l.calls id = some c) (hadd : l.handleTaken id c out = l.addTaken id c out)
    (hs : { l with phase := .popping }.addConnection id c out = some l') :
    ∃ as, Lts.runs fallibleStep l as = some l' := by
  have hhandle : ∀ {l₁}, l.addTaken id c out = some l₁ →
      l.fallibleStep (.handle out) = some l₁ := by
    intro l₁ h₁
    simp only [fallibleStep, hph, hc, Option.bind_some, hadd, h₁]
  have hanswer : ∀ {l₁ r}, l₁.phase = .answering id r → (l₁.calls id).isSome →
      l.addTaken id c out = some l₁ →
      (∀ c₁, l₁.calls id = some c₁ → { l₁ with phase := .popping }.answer id c₁ r = l') →
      ∃ as, Lts.runs fallibleStep l as = some l' := by
    intro l₁ r hph₁ hsome h₁ heq
    obtain ⟨c₁, hc₁⟩ := Option.isSome_iff_exists.mp hsome
    have hans : l₁.fallibleStep .answer = some l' := by
      simp only [fallibleStep, hph₁, hc₁, Option.map_some, heq c₁ hc₁]
    exact ⟨[.handle out, .answer], runs_step (hhandle h₁) (runs_step hans rfl)⟩
  have hself : ∀ c₁ c₂, (l.setCall id c₁).calls id = some c₂ → c₂ = c₁ := fun c₁ c₂ h =>
    Option.some.inj (h.symm.trans (Function.update_self ..))
  unfold addConnection at hs
  split at hs
  · cases hs
  · rename_i hvacant
    split at hs
    · rename_i hkey
      cases hs
      have h₁ : l.addTaken id c out = some { l.setCall id c.lost with phase := .exited } := by
        unfold addTaken
        rw [if_neg hvacant, if_pos hkey]
      exact ⟨[.handle out], runs_step (hhandle h₁) rfl⟩
    · rename_i hkey
      split at hs <;> rename_i hregister <;> cases hs
      · refine hanswer (r := .error _) rfl ?_
          (by unfold addTaken; rw [if_neg hvacant, if_neg hkey, hregister]) fun c₁ hc₁ => ?_
        · simp [setCall]
        · obtain rfl := hself _ _ hc₁
          exact answer_setCall { l with phase := .popping } ..
      · refine hanswer (r := .ok _) rfl ?_
          (by unfold addTaken; rw [if_neg hvacant, if_neg hkey, hregister]) fun c₁ hc₁ => ?_
        · simp [setCall]
        · obtain rfl := hself _ _ hc₁
          exact answer_setCall { l with
            phase := .popping
            connections := Function.update l.connections out.key (some ⟨id, out.key⟩)
            registry := ⟨id, out.key⟩ :: l.registry
            inserted := ⟨id, out.key⟩ :: l.inserted } ..

/-- What `SharedLoop.step` does in one step is done here in some. -/
theorem step_runs {a : SharedAction} (hs : l.step a = some l') :
    ∃ as, Lts.runs fallibleStep l as = some l' := by
  have hshared : (∀ out, a ≠ .pop out) → ∃ as, Lts.runs fallibleStep l as = some l' := by
    intro hne
    refine ⟨[.shared a], ?_⟩
    cases a with
    | pop out => exact absurd rfl (hne out)
    | _ => exact runs_step hs rfl
  cases step_cases hs with
  | emptied hph hqueue =>
      exact ⟨[.take], runs_step (by simp only [fallibleStep, hph, hqueue]) rfl⟩
  | @popped out id queue c _ hph hqueue hc hhandle =>
      let l₁ : SharedLoop :=
        { l with phase := .taken id, queue, handled := l.handled ++ [id] }
      have htake : l.fallibleStep .take = some l₁ := by
        simp only [fallibleStep, hph, hqueue]
        rfl
      have hpopping : ({ l with queue, handled := l.handled ++ [id] } : SharedLoop) =
          { l₁ with phase := .popping } := by rw [← hph]
      rw [hpopping] at hhandle
      suffices h : ∃ as, Lts.runs fallibleStep l₁ as = some l' by
        obtain ⟨as, has⟩ := h
        exact ⟨.take :: as, runs_step htake has⟩
      have hone : l₁.handleTaken id c out = some l' →
          ∃ as, Lts.runs fallibleStep l₁ as = some l' := by
        intro h
        have hhandle : l₁.fallibleStep (.handle out) = some l' := by
          simp only [fallibleStep, show l₁.phase = .taken id from rfl,
            show l₁.calls id = some c from hc, Option.bind_some, h]
        exact ⟨[.handle out], runs_step hhandle rfl⟩
      unfold SharedLoop.handle at hhandle
      split at hhandle <;> rename_i hkind
      · exact addConnection_runs rfl hc (by unfold handleTaken; rw [hkind]) hhandle
      · exact addConnection_runs rfl hc (by unfold handleTaken; rw [hkind]) hhandle
      · exact hone (by unfold handleTaken; rw [hkind]; exact hhandle)
      · exact hone (by unfold handleTaken; rw [hkind]; exact hhandle)
  | _ => exact hshared nofun

/-! ## What a step does to the calls -/

theorem callMoves_setCall {id' : RequestId} {c₁ c₁' : HandleCall} (hc : l.calls id = some c₁)
    (hcalls : l'.calls = Function.update l.calls id (some c₁'))
    (hown : OwnMoves l l' id c₁ c₁' a) : CallMoves l l' a id' := by
  by_cases hid : id' = id
  · subst hid
    exact .own hc (by rw [hcalls, Function.update_self]) hown
  · exact .same (by rw [hcalls, Function.update_of_ne hid])

/-- If the release drops the queue, it may hold the request of the call itself. -/
theorem release_calls {ok : Bool} (hc : l.calls id = some c) (hph : c.phase = .pushed ok)
    (id' : RequestId) : CallMoves l (l.release id c ok) (.shared (.release id)) id' := by
  let c₁ : HandleCall := { c with phase := if ok then .ringing else .returned c.failure }
  let l₁ : SharedLoop := { l.setCall id c₁ with pushing := l.pushing.erase id }
  by_cases hid : id' = id
  · subst hid
    have hself : l₁.calls id' = some c₁ := Function.update_self ..
    rcases dropQueue_call l₁ id' with hkept | ⟨hin, hout, hlost⟩
    · exact .own hc (hkept.trans hself) (.released hph rfl rfl fun _ => rfl)
    · rw [hself] at hlost
      exact .own hc hlost (.released hph rfl rfl fun hphase => absurd hout hphase)
  · have hother : l₁.calls id' = l.calls id' := Function.update_of_ne hid ..
    rcases dropQueue_call l₁ id' with hkept | ⟨hin, hout, hlost⟩
    · exact .same (congrArg _ (hkept.trans hother))
    · rw [hother] at hlost
      exact .lost hin hout hlost

theorem dropLoop_calls (l : SharedLoop) (id : RequestId) :
    CallMoves l l.dropLoop (.shared .drop) id := by
  have hplace : ((l.calls id).map HandleCall.disconnected).map HandleCall.released =
      (l.calls id).map HandleCall.released := by
    rcases l.calls id with _ | ⟨kind, phase, reply, place⟩
    · rfl
    · cases place <;> rfl
  have hlost : ((l.calls id).map HandleCall.disconnected).map HandleCall.lost =
      (l.calls id).map HandleCall.lost := by
    rcases l.calls id with _ | ⟨kind, phase, reply, place⟩
    · rfl
    · cases place <;> rfl
  rcases dropQueue_call { l with
    phase := .dropped
    connections := fun _ => none
    registry := []
    calls := fun id => (l.calls id).map .disconnected } id with hkept | ⟨hin, hout, hcall⟩
  · exact .same ((congrArg _ hkept).trans hplace)
  · exact .lost hin hout (hcall.trans hlost)

theorem fallibleStep_calls (hs : l.fallibleStep a = some l') (id : RequestId) :
    CallMoves l l' a id := by
  cases a with
  | shared a =>
      obtain ⟨hne, hs⟩ := fallibleStep_shared hs
      cases step_cases hs with
      | @called kind =>
          by_cases hid : id = l.next
          · exact .began rfl hid rfl (by simp only [hid, Function.update_self])
          · exact .same (by simp only [Function.update_of_ne hid])
      | upgraded hc hph =>
          unfold upgrade
          split
          · exact callMoves_setCall hc rfl (.upgraded hph rfl)
          · rename_i hpos
            refine callMoves_setCall hc rfl (.refused hph ?_ rfl)
            by_contra hphase
            exact hpos (strong_pos hphase)
      | pushed hc hph =>
          unfold push
          split
          · exact callMoves_setCall hc rfl
              (.pushed hph (List.mem_append_right _ (List.mem_singleton_self _)) rfl)
          · rename_i hfull
            exact callMoves_setCall hc rfl (.full hph (Nat.le_of_not_lt hfull) rfl rfl)
      | released hc hph => exact release_calls hc hph id
      | rung hc hph =>
          unfold ring
          split
          · rename_i hkind
            exact callMoves_setCall hc rfl (.waits hph hkind rfl)
          · rename_i hkind
            exact callMoves_setCall hc rfl (.rung hph hkind rfl)
      | @received _ c _ hc hph hrecv =>
          unfold recv at hrecv
          split at hrecv
          · cases hrecv
          all_goals
            rename_i hreply
            cases hrecv
            have hne : c.reply ≠ .pending := by
              rw [hreply]
              nofun
            exact callMoves_setCall hc rfl (.received hph hne rfl)
      | polled | handledEvents | woken => exact .same rfl
      | @event done token es =>
          have h := handleToken_alike { l with phase := .events es } token done
          exact .same (h.calls id)
      | @emptied out | @popped out => exact absurd rfl (hne out)
      | dropped => exact dropLoop_calls l id
  | take =>
      simp only [fallibleStep] at hs
      split at hs <;> cases hs <;> exact .same rfl
  | handle out =>
      simp only [fallibleStep] at hs
      split at hs
      · rename_i id₀ hph
        obtain ⟨c, hc, hs⟩ := Option.bind_eq_some_iff.mp hs
        have h := handleTaken_handles hc hs
        rcases h.calls id with hcall | ⟨rfl, hlost, hexited⟩
        · exact .same hcall
        · exact .answered (Or.inl hph) (Or.inr hexited) h.queue hc hlost rfl rfl
      · cases hs
  | answer =>
      simp only [fallibleStep] at hs
      split at hs
      · rename_i id₀ r hph
        obtain ⟨c, hc, rfl⟩ := Option.map_eq_some_iff.mp hs
        obtain ⟨hothers, c', hc', hkind, hphase⟩ :=
          answer_calls { l with phase := .popping } id₀ c r
        obtain ⟨hqueue, -, -, hafter⟩ := answer_loop { l with phase := .popping } id₀ c r
        by_cases hid : id = id₀
        · subst hid
          exact .answered (Or.inr ⟨r, hph⟩) hafter hqueue hc hc' hkind hphase
        · exact .same (congrArg _ (hothers id hid))
      · cases hs
  | wakeFails id₀ e =>
      simp only [fallibleStep] at hs
      split at hs
      · rename_i hc
        cases hs
        unfold wakeFails
        split
        · exact callMoves_setCall hc rfl (.wakeFailed rfl rfl)
        · exact callMoves_setCall hc rfl (.wakeFailed rfl rfl)
      · cases hs
  | pollFails =>
      simp only [fallibleStep] at hs
      split at hs <;> cases hs
      exact .same rfl

theorem OwnMoves.kind (h : OwnMoves l l' id c c' a) : c'.kind = c.kind := by
  cases h with
  | released _ hkind => exact hkind
  | upgraded _ hc' | refused _ _ hc' | pushed _ _ hc' | full _ _ _ hc' | waits _ _ hc'
  | rung _ _ hc' | wakeFailed _ hc' | received _ _ hc' =>
      subst hc'
      rfl

/-- There are no calls but those that have begun. -/
def Fresh (l : SharedLoop) : Prop := ∀ id, l.next ≤ id → l.calls id = none

theorem Fresh.lt (h : l.Fresh) (hc : l.calls id = some c) : id < l.next := by
  by_contra hle
  rw [h id (Nat.le_of_not_lt hle)] at hc
  cases hc

theorem fresh_step (h : l.Fresh) (hs : l.fallibleStep a = some l') : l'.Fresh := by
  intro id hle
  have hnone := h id (Nat.le_trans (fallibleStep_loop hs).next hle)
  cases fallibleStep_calls hs id with
  | same hcall =>
      rw [hnone] at hcall
      exact Option.map_eq_none_iff.mp hcall
  | began _ hid hnext =>
      rw [hnext, hid] at hle
      exact absurd hle (Nat.not_succ_le_self _)
  | own hc | answered _ _ _ hc =>
      rw [hnone] at hc
      cases hc
  | lost _ _ hcall =>
      rw [hcall, hnone]
      rfl

theorem fallibleStep_kind (h : l.Fresh) (hs : l.fallibleStep a = some l')
    (hc : l.calls id = some c) : ∃ c', l'.calls id = some c' ∧ c'.kind = c.kind := by
  cases fallibleStep_calls hs id with
  | same hcall =>
      rw [hc] at hcall
      obtain ⟨c', hc', heq⟩ := Option.map_eq_some_iff.mp hcall
      exact ⟨c', hc', (eq_of_released heq).1⟩
  | began _ hid => exact absurd (h.lt hc) (by rw [hid]; exact Nat.lt_irrefl _)
  | own hc₁ hc' hown =>
      rw [hc] at hc₁
      cases hc₁
      exact ⟨_, hc', hown.kind⟩
  | lost _ _ hcall =>
      rw [hc] at hcall
      exact ⟨c.lost, hcall, rfl⟩
  | answered _ _ _ hc₁ hc' hkind =>
      rw [hc] at hc₁
      cases hc₁
      exact ⟨_, hc', hkind⟩

theorem OwnMoves.past (h : OwnMoves l l' id c c' a) (hpast : c.phase.beforePush = false) :
    c'.phase.beforePush = false := by
  cases h with
  | upgraded hph | refused hph | pushed hph | full hph =>
      rw [hph] at hpast
      cases hpast
  | @released ok _ _ hphase =>
      rw [hphase]
      cases ok <;> rfl
  | waits _ _ hc' | rung _ _ hc' | wakeFailed _ hc' | received _ _ hc' =>
      subst hc'
      rfl

theorem fallibleStep_past (h : l.Fresh) (hs : l.fallibleStep a = some l')
    (hc : l.calls id = some c) (hpast : c.phase.beforePush = false)
    (hc' : l'.calls id = some c') : c'.phase.beforePush = false := by
  cases fallibleStep_calls hs id with
  | same hcall =>
      rw [hc, hc'] at hcall
      rw [(eq_of_released (Option.some.inj hcall)).2.1]
      exact hpast
  | began _ hid => exact absurd (h.lt hc) (by rw [hid]; exact Nat.lt_irrefl _)
  | own hc₁ hc₁' hown =>
      rw [hc] at hc₁
      rw [hc'] at hc₁'
      cases hc₁
      cases hc₁'
      exact hown.past hpast
  | lost _ _ hcall =>
      rw [hc, hc'] at hcall
      cases hcall
      exact hpast
  | answered _ _ _ hc₁ hc₁' _ hphase =>
      rw [hc] at hc₁
      rw [hc'] at hc₁'
      cases hc₁
      cases hc₁'
      rw [hphase]
      exact hpast

/-- How a call comes past its push. -/
theorem fallibleStep_enters (h : l.Fresh) (hs : l.fallibleStep a = some l')
    (hc : l.calls id = some c) (hbefore : c.phase.beforePush = true)
    (hc' : l'.calls id = some c') (hpast : c'.phase.beforePush = false) :
    l.phase = .dropped ∨ (a = .shared (.push id) ∧
      (id ∈ l'.queue ∨ EVENT_LOOP_INITIAL_CLIENTS ≤ l.queue.length)) := by
  have hsame : c'.phase ≠ c.phase := by
    intro heq
    rw [heq, hbefore] at hpast
    cases hpast
  cases fallibleStep_calls hs id with
  | same hcall =>
      rw [hc, hc'] at hcall
      exact absurd (eq_of_released (Option.some.inj hcall)).2.1 hsame
  | began _ hid => exact absurd (h.lt hc) (by rw [hid]; exact Nat.lt_irrefl _)
  | own hc₁ hc₁' hown =>
      rw [hc] at hc₁
      rw [hc'] at hc₁'
      cases hc₁
      cases hc₁'
      cases hown with
      | upgraded _ hc' =>
          subst hc'
          cases hpast
      | refused _ hphase => exact Or.inl hphase
      | pushed _ hin => exact Or.inr ⟨rfl, Or.inl hin⟩
      | full _ hfull => exact Or.inr ⟨rfl, Or.inr hfull⟩
      | released hph | waits hph | rung hph | wakeFailed hph | received hph =>
          rw [hph] at hbefore
          cases hbefore
  | lost _ _ hcall =>
      rw [hc, hc'] at hcall
      cases hcall
      exact absurd rfl hsame
  | answered _ _ _ hc₁ hc₁' _ hphase =>
      rw [hc] at hc₁
      rw [hc'] at hc₁'
      cases hc₁
      cases hc₁'
      exact absurd hphase hsame

/-- What has been in the queue was pushed. -/
def Entered (l : SharedLoop) : Prop :=
  ∀ id, id ∈ l.queue ∨ id ∈ l.handled → ∃ c, l.calls id = some c ∧ c.phase.beforePush = false

theorem entered_step (hfresh : l.Fresh) (hs : l.fallibleStep a = some l') (h : l.Entered) :
    l'.Entered := by
  have hold : ∀ id, id ∈ l.queue ∨ id ∈ l.handled →
      ∃ c, l'.calls id = some c ∧ c.phase.beforePush = false := by
    intro id hin
    obtain ⟨c, hc, hpast⟩ := h id hin
    obtain ⟨c', hc', -⟩ := fallibleStep_kind hfresh hs hc
    exact ⟨c', hc', fallibleStep_past hfresh hs hc hpast hc'⟩
  intro id hin
  cases (fallibleStep_loop hs).queue with
  | kept _ hqueue hhandled | finished _ _ hqueue hhandled =>
      exact hold id (by rwa [hqueue, hhandled] at hin)
  | pushed _ _ hc' _ hqueue hhandled =>
      rw [hqueue, hhandled] at hin
      rcases hin with hin | hin
      · rcases List.mem_append.mp hin with hin | hnew
        · exact hold id (Or.inl hin)
        · obtain rfl := List.mem_singleton.mp hnew
          exact ⟨_, hc', rfl⟩
      · exact hold id (Or.inr hin)
  | taken _ _ hqueue hhandled =>
      rw [hhandled] at hin
      refine hold id ?_
      rw [hqueue]
      rcases hin with hin | hin
      · exact Or.inl (List.mem_cons_of_mem _ hin)
      · rcases List.mem_append.mp hin with hin | hhead
        · exact Or.inr hin
        · rw [List.mem_singleton.mp hhead]
          exact Or.inl (List.mem_cons_self ..)
  | dropped hqueue hhandled =>
      rw [hqueue, hhandled] at hin
      rcases hin with hin | hin
      · cases hin
      · exact hold id (Or.inr hin)

theorem noShutdown_of_step (h : l.Fresh) (hs : l.fallibleStep a = some l')
    (hno : l'.NoShutdown id) : l.NoShutdown id := by
  intro c hc
  obtain ⟨c', hc', hkind⟩ := fallibleStep_kind h hs hc
  exact hkind ▸ hno c' hc'

end SharedLoop

end Audioipc

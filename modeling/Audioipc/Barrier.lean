import Mathlib.Algebra.Order.BigOperators.Group.List
import Mathlib.Algebra.Order.Ring.Nat
import Audioipc.SharedSteps

/-!
# The registration barrier

What callers of an `EventLoopHandle` rely on. A bind that returns `Ok` has
found its connection in the slab and registered with the poll: `inserted` is
traced back to the step that inserted it (`runs_inserted`). After the drop
of the loop each step of a call leaves less work (`Advances.work_lt`), and
when none is left nobody waits (`Inv.settles`).
-/

namespace Audioipc

namespace SharedLoop

variable {l l' : SharedLoop} {id : RequestId} {c c' : HandleCall}

/-! ## The barrier -/

theorem dropQueue_inserted (l : SharedLoop) : l.dropQueue.inserted = l.inserted := by
  unfold dropQueue
  split <;> rfl

theorem handleToken_inserted (l : SharedLoop) (token : Token) (done : Bool) :
    (l.handleToken token done).inserted = l.inserted := by
  unfold handleToken
  split
  · rfl
  · split
    · unfold remove
      dsimp only
      split <;> rfl
    · rfl

theorem answer_keeps (l : SharedLoop) (id : RequestId) (c : HandleCall) (r : Except IoError Token) :
    (l.answer id c r).connections = l.connections ∧ (l.answer id c r).registry = l.registry ∧
      (l.answer id c r).inserted = l.inserted := by
  unfold answer
  split <;> exact ⟨rfl, rfl, rfl⟩

theorem addConnection_inserted {out : PopOutcome} (hs : l.addConnection id c out = some l') :
    l'.inserted = l.inserted ∨
    ∃ conn, l'.inserted = conn :: l.inserted ∧ l'.connections conn.token = some conn ∧
      conn ∈ l'.registry := by
  unfold addConnection at hs
  split at hs
  · cases hs
  · split at hs
    · cases hs
      exact Or.inl rfl
    · split at hs
      · cases hs
        exact Or.inl (answer_keeps ..).2.2
      · cases hs
        let conn : LoopConnection := ⟨id, out.key⟩
        obtain ⟨hconnections, hregistry, hinserted⟩ := answer_keeps
          { l with
            connections := Function.update l.connections out.key (some conn)
            registry := conn :: l.registry
            inserted := conn :: l.inserted }
          id { c with place := .connection } (.ok out.key)
        refine Or.inr ⟨conn, hinserted, ?_, ?_⟩
        · rw [hconnections]
          exact Function.update_self ..
        · rw [hregistry]
          exact List.mem_cons_self ..

/-- A connection that a step inserts is in the slab and registered then. -/
theorem step_inserted {a : SharedAction} (hs : l.step a = some l') :
    l'.inserted = l.inserted ∨
    ∃ conn, l'.inserted = conn :: l.inserted ∧ l'.connections conn.token = some conn ∧
      conn ∈ l'.registry := by
  cases step_cases hs with
  | called | polled | handledEvents | woken | emptied => exact Or.inl rfl
  | upgraded =>
      left
      unfold upgrade
      split <;> rfl
  | pushed =>
      left
      unfold push
      split <;> rfl
  | released | dropped => exact Or.inl (dropQueue_inserted _)
  | rung =>
      left
      unfold ring
      split <;> rfl
  | received _ _ hrecv =>
      unfold recv at hrecv
      split at hrecv <;> cases hrecv <;> exact Or.inl rfl
  | event => exact Or.inl (handleToken_inserted ..)
  | popped _ _ _ hhandle =>
      unfold handle at hhandle
      split at hhandle
      · have hadded := addConnection_inserted hhandle
        exact hadded
      · have hadded := addConnection_inserted hhandle
        exact hadded
      · cases hhandle
        exact Or.inl rfl
      · cases hhandle
        exact Or.inl (handleToken_inserted ..)

/-- There was a time when a connection was in the slab and registered. -/
theorem runs_inserted {as : List SharedAction} {conn : LoopConnection}
    (hrun : Lts.runs step l as = some l') (hin : conn ∈ l'.inserted) :
    conn ∈ l.inserted ∨ ∃ as₁ as₂ l₁, as = as₁ ++ as₂ ∧ Lts.runs step l as₁ = some l₁ ∧
      l₁.connections conn.token = some conn ∧ conn ∈ l₁.registry := by
  induction as generalizing l with
  | nil =>
      obtain rfl := Option.some.inj hrun
      exact Or.inl hin
  | cons a as ih =>
      obtain ⟨l₁, hs, hrest⟩ := Lts.runs_cons_eq_some.mp hrun
      rcases ih hrest with hold | ⟨as₁, as₂, l₂, rfl, hrun₁, hthere⟩
      · rcases step_inserted hs with hsame | ⟨conn', hnew, hslab, hregistry⟩
        · exact Or.inl (hsame ▸ hold)
        · rw [hnew] at hold
          rcases List.mem_cons.mp hold with rfl | hold
          · exact Or.inr ⟨[a], as, l₁, rfl, by simp [Lts.runs_cons, hs], hslab, hregistry⟩
          · exact Or.inl hold
      · exact Or.inr ⟨a :: as₁, as₂, l₂, rfl, Lts.runs_cons_eq_some.mpr ⟨l₁, hs, hrun₁⟩, hthere⟩

theorem Registered.unique (h : l.Registered) {t t' : Token} {conn conn' : LoopConnection}
    (ht : l.connections t = some conn) (ht' : l.connections t' = some conn')
    (heq : conn.token = conn'.token) : conn = conn' := by
  obtain rfl := (h.slab t conn ht).1
  obtain rfl := (h.slab t' conn' ht').1
  rw [heq] at ht
  exact Option.some.inj (ht.symm.trans ht')

/-! ## After the drop of the loop -/

def workOf (l : SharedLoop) (id : RequestId) : Nat :=
  ((l.calls id).map (·.phase.work)).getD 0

/-- The steps that all calls have left, at most. -/
def work (l : SharedLoop) : Nat := ((List.range l.next).map l.workOf).sum

/-- A step of one call, which has fewer steps left then. -/
structure Advances (l l' : SharedLoop) (id : RequestId) : Prop where
  next : l'.next = l.next
  phase : l'.phase = l.phase
  known : (l.calls id).isSome
  less : l'.workOf id < l.workOf id
  others : ∀ id' ≠ id, l'.workOf id' = l.workOf id'

theorem advances_setCall (c' : HandleCall) (hc : l.calls id = some c)
    (hless : c'.phase.work < c.phase.work) : Advances l (l.setCall id c') id where
  next := rfl
  phase := rfl
  known := by rw [hc]; rfl
  less := by
    unfold workOf
    simp only [setCall, Function.update_self, hc]
    exact hless
  others id' hne := by
    unfold workOf
    simp only [setCall, Function.update_of_ne hne]

theorem Advances.dropQueue (h : Advances l l' id) : Advances l l'.dropQueue id := by
  have hwork : ∀ id', l'.dropQueue.workOf id' = l'.workOf id' := by
    intro id'
    unfold SharedLoop.dropQueue
    split
    · unfold workOf
      dsimp only
      split
      · rw [Option.map_map]
        rfl
      · rfl
    · rfl
  refine ⟨?_, ?_, h.known, hwork id ▸ h.less, fun id' hne => (hwork id').trans (h.others id' hne)⟩
  · rw [← h.next]
    unfold SharedLoop.dropQueue
    split <;> rfl
  · rw [← h.phase]
    unfold SharedLoop.dropQueue
    split <;> rfl

/-- After the drop of the loop only the calls take steps. -/
theorem step_advances {a : SharedAction} (hdropped : l.phase = .dropped) (ha : a.isCall = false)
    (hs : l.step a = some l') : ∃ id, Advances l l' id := by
  cases step_cases hs with
  | called => cases ha
  | @upgraded id c hc hph =>
      have hwork : c.phase.work = 5 := by rw [hph]; rfl
      unfold upgrade
      split
      · have hset := advances_setCall { c with phase := .upgraded } hc
          (hwork ▸ Nat.lt_succ_self 4)
        exact ⟨id, hset.next, hset.phase, hset.known, hset.less, hset.others⟩
      · exact ⟨id, advances_setCall _ hc (hwork ▸ Nat.succ_pos 4)⟩
  | @pushed id c hc hph =>
      have hwork : c.phase.work = 4 := by rw [hph]; rfl
      unfold push
      split
      · have hset := advances_setCall c.enqueued hc (hwork ▸ Nat.lt_succ_self 3)
        exact ⟨id, hset.next, hset.phase, hset.known, hset.less, hset.others⟩
      · exact ⟨id, advances_setCall _ hc (hwork ▸ Nat.lt_succ_self 3)⟩
  | @released id c ok hc hph =>
      have hwork : c.phase.work = 3 := by rw [hph]; rfl
      let c' : HandleCall := { c with phase := if ok then .ringing else .returned c.failure }
      have hless : c'.phase.work < c.phase.work := by
        rw [hwork]
        cases ok
        · exact Nat.succ_pos 2
        · exact Nat.lt_succ_self 2
      have hset := advances_setCall c' hc hless
      exact ⟨id, Advances.dropQueue ⟨hset.next, hset.phase, hset.known, hset.less, hset.others⟩⟩
  | @rung id c hc hph =>
      have hwork : c.phase.work = 2 := by rw [hph]; rfl
      unfold ring
      split
      · exact ⟨id, advances_setCall _ hc (hwork ▸ Nat.lt_succ_self 1)⟩
      · exact ⟨id, advances_setCall _ hc (hwork ▸ Nat.succ_pos 1)⟩
  | @received id c _ hc hph hrecv =>
      have hwork : c.phase.work = 1 := by rw [hph]; rfl
      unfold recv at hrecv
      split at hrecv
      · cases hrecv
      · cases hrecv
        exact ⟨id, advances_setCall _ hc (hwork ▸ Nat.succ_pos 0)⟩
      · cases hrecv
        exact ⟨id, advances_setCall _ hc (hwork ▸ Nat.succ_pos 0)⟩
  | polled hph | handledEvents hph | woken hph | event hph | emptied hph | popped hph
  | dropped hph =>
      rw [hdropped] at hph
      cases hph

theorem Advances.work_lt (h : Advances l l' id) (hlt : id < l.next) : l'.work < l.work := by
  unfold work
  rw [h.next]
  refine List.sum_lt_sum l'.workOf l.workOf (fun id' _ => ?_) ⟨id, List.mem_range.mpr hlt, h.less⟩
  by_cases hid : id' = id
  · rw [hid]
    exact Nat.le_of_lt h.less
  · exact Nat.le_of_eq (h.others id' hid)

/-- A run after the drop of the loop, in which no call begins, comes to an end. -/
theorem runs_bounded {bs : List SharedAction} (h : l.Inv) (hdropped : l.phase = .dropped)
    (hbs : ∀ a ∈ bs, a.isCall = false) (hrun : Lts.runs step l bs = some l') :
    bs.length ≤ l.work := by
  induction bs generalizing l with
  | nil => exact Nat.zero_le _
  | cons a bs ih =>
      obtain ⟨l₁, hs, hrest⟩ := Lts.runs_cons_eq_some.mp hrun
      obtain ⟨id, hadvances⟩ := step_advances hdropped (hbs a (List.mem_cons_self ..)) hs
      obtain ⟨c, hc⟩ := Option.isSome_iff_exists.mp hadvances.known
      have hlt := hadvances.work_lt (h.calls.lt hc)
      have hle := ih (step_inv h hs) (hadvances.phase.trans hdropped)
        (fun a ha => hbs a (List.mem_cons_of_mem _ ha)) hrest
      rw [List.length_cons]
      omega

/-- A call can take a step, unless it has returned, or is waiting for an
answer that may still come. -/
theorem call_steps (hc : l.calls id = some c) :
    (∃ r, c.phase = .returned r) ∨ (c.phase = .waiting ∧ c.reply = .pending) ∨
      ∃ a, a.isCall = false ∧ l.step a ≠ none := by
  obtain ⟨kind, phase, reply, place⟩ := c
  cases phase with
  | start => exact Or.inr (Or.inr ⟨.upgrade id, rfl, by simp [step, hc]⟩)
  | upgraded => exact Or.inr (Or.inr ⟨.push id, rfl, by simp [step, hc]⟩)
  | pushed ok => exact Or.inr (Or.inr ⟨.release id, rfl, by simp [step, hc]⟩)
  | ringing => exact Or.inr (Or.inr ⟨.ring id, rfl, by simp [step, hc]⟩)
  | returned r => exact Or.inl ⟨r, rfl⟩
  | waiting =>
      cases reply with
      | pending => exact Or.inr (Or.inl ⟨rfl, rfl⟩)
      | sent r => exact Or.inr (Or.inr ⟨.recv id, rfl, by simp [step, hc, recv]⟩)
      | closed => exact Or.inr (Or.inr ⟨.recv id, rfl, by simp [step, hc, recv]⟩)

/-- All calls have returned, those of `bind_client` and `bind_server` with
the answer they got or else with `Err`, and all pipes and drivers are
dropped. -/
def Settled (l : SharedLoop) : Prop :=
  ∀ id c, l.calls id = some c → c.place = .dropped ∧ ∃ r, c.phase = .returned r ∧
    (c.kind = .addConnection → (∃ r', c.reply = .sent r' ∧ r = r'.map some) ∨
      (c.reply = .closed ∧ r = .error .connectionAborted))

/-- What the drop of the loop leads to. When nobody is in `push`, nobody waits,
and what was not processed is dropped (`released`); the calls that have begun
come to an end (`bounded`). -/
structure Settles (l : SharedLoop) : Prop where
  released : l.pushing = [] → ∀ id c, l.calls id = some c →
    (c.phase = .waiting → c.reply ≠ .pending) ∧ (c.phase ≠ .start → c.place = .dropped)
  bounded : ∀ bs l', (∀ a ∈ bs, a.isCall = false) → Lts.runs step l bs = some l' →
    bs.length ≤ l.work
  settled : (∀ a, a.isCall = false → l.step a = none) → l.Settled

theorem Inv.settles (h : l.Inv) (hdropped : l.phase = .dropped) : l.Settles := by
  have hreleased : l.pushing = [] → ∀ id c, l.calls id = some c →
      (c.phase = .waiting → c.reply ≠ .pending) ∧ (c.phase ≠ .start → c.place = .dropped) := by
    intro hnobody id c hc
    have hok := h.calls.ok id c hc
    have hqueue : l.queue = [] := h.alive (by simp [strong, hnobody, hdropped])
    have hout : id ∉ l.queue := by rw [hqueue]; exact List.not_mem_nil
    refine ⟨fun hph hreply => hout (hok.waits hreply (by rw [hph]; rfl)), fun hph => ?_⟩
    cases hplace : c.place with
    | caller =>
        exfalso
        have hnot : c.phase.holds = false := by
          by_contra hholds
          have hin := hok.pushing.mpr (by simpa using hholds)
          rw [hnobody] at hin
          cases hin
        have hbefore := hok.owned hplace
        cases hphase : c.phase with
        | start => exact hph hphase
        | upgraded => rw [hphase] at hnot; cases hnot
        | _ => rw [hphase] at hbefore; cases hbefore
    | queue => exact absurd (hok.queued hplace) hout
    | connection =>
        obtain ⟨t, ht⟩ := hok.connected hplace
        rw [h.registered.dropped hdropped t] at ht
        cases ht
    | dropped => rfl
  refine ⟨hreleased, fun bs l' hbs hrun => runs_bounded h hdropped hbs hrun, fun hstuck => ?_⟩
  have hnobody : l.pushing = [] := by
    by_contra hne
    obtain ⟨id, hin⟩ := List.exists_mem_of_ne_nil _ hne
    obtain ⟨c, hc⟩ := Option.isSome_iff_exists.mp (h.calls.pushing id hin)
    have hholds := (h.calls.ok id c hc).pushing.mp hin
    rcases call_steps hc with ⟨r, hph⟩ | ⟨hph, -⟩ | ⟨a, ha, hstep⟩
    · rw [hph] at hholds
      cases hholds
    · rw [hph] at hholds
      cases hholds
    · exact hstep (hstuck a ha)
  intro id c hc
  obtain ⟨hwaits, hplace⟩ := hreleased hnobody id c hc
  rcases call_steps hc with ⟨r, hph⟩ | ⟨hph, hreply⟩ | ⟨a, ha, hstep⟩
  · exact ⟨hplace (by rw [hph]; nofun), r, hph, (h.calls.ok id c hc).returned r hph⟩
  · exact absurd hreply (hwaits hph)
  · exact absurd (hstuck a ha) hstep

/-! ## Every interleaving -/

/-- The connection that a call got was in the slab and registered before,
under a token that no other connection in the slab had; as long as it is in
the slab no other one has it. -/
def Barrier (as : List SharedAction) (l : SharedLoop) (id : RequestId) (t : Token) : Prop :=
  t ≠ WAKE_TOKEN ∧
  (∃ as₁ as₂ l₁, as = as₁ ++ as₂ ∧ Lts.runs step new as₁ = some l₁ ∧
    l₁.connections t = some ⟨id, t⟩ ∧ (⟨id, t⟩ : LoopConnection) ∈ l₁.registry ∧
    ∀ t' conn, l₁.connections t' = some conn → conn.id ≠ id → conn.token ≠ t) ∧
  (l.connections t = some ⟨id, t⟩ →
    ∀ t' conn, l.connections t' = some conn → conn.id ≠ id → conn.token ≠ t)

/-- Requests are handled in the order in which they were pushed, each once
and none after the first `Shutdown`; a call that returns `Ok` has found its
connection registered; no two connections in the slab share a token; and
after the drop of the loop no call is left waiting, and no pipe or driver. -/
theorem registration_barrier {as : List SharedAction} (hrun : Lts.runs step new as = some l) :
    (l.handled <+: l.entered ∧ l.entered.Nodup ∧ ∀ id ∈ l.handled.dropLast, l.NoShutdown id) ∧
    (∀ id c t, l.calls id = some c → c.kind = .addConnection →
      c.phase = .returned (.ok (some t)) → Barrier as l id t) ∧
    (∀ t t' conn conn', l.connections t = some conn → l.connections t' = some conn' →
      conn.token = conn'.token → conn = conn') ∧
    (l.phase = .dropped → l.Settles) := by
  have h := runs_inv hrun
  have hother : ∀ {l₁ : SharedLoop} {id t}, l₁.Registered → l₁.connections t = some ⟨id, t⟩ →
      ∀ t' conn, l₁.connections t' = some conn → conn.id ≠ id → conn.token ≠ t := by
    intro l₁ id t hreg ht t' conn ht' hne heq
    have hsame := hreg.unique ht' ht heq
    rw [hsame] at hne
    exact hne rfl
  refine ⟨⟨?_, h.ordered.nodup, h.ordered.before⟩, fun id c t hc hkind hph => ?_,
    fun t t' conn conn' ht ht' heq => h.registered.unique ht ht' heq, h.settles⟩
  · rcases h.ordered.order with hall | ⟨-, -, hbefore⟩
    · exact ⟨l.queue, hall.symm⟩
    · exact hbefore
  · have hok := h.calls.ok id c hc
    have hinserted : (⟨id, t⟩ : LoopConnection) ∈ l.inserted := by
      rcases hok.returned _ hph hkind with ⟨r, hreply, hr⟩ | ⟨-, hr⟩
      · cases r with
        | error e => cases hr
        | ok t' =>
            cases hr
            exact hok.sent t hreply
      · cases hr
    refine ⟨h.registered.inserted _ hinserted, ?_, hother h.registered⟩
    rcases runs_inserted hrun hinserted with hnone | ⟨as₁, as₂, l₁, has, hrun₁, hslab, hregistry⟩
    · cases hnone
    · exact ⟨as₁, as₂, l₁, has, hrun₁, hslab, hregistry,
        hother (runs_inv hrun₁).registered hslab⟩

/-! ## Two runs -/

/-- A call of `bind_server` up to its wait. -/
def bindScript (id : RequestId) : List SharedAction :=
  [.call .addConnection, .upgrade id, .push id, .release id, .ring id]

/-- The loop handles one request, which gets this key. -/
def handleScript (key : Token) : List SharedAction :=
  [.poll [WAKE_TOKEN], .event false, .event false, .pop ⟨key, .ok (), false⟩,
    .pop ⟨0, .ok (), false⟩]

def returned (l : SharedLoop) (id : RequestId) : Option Token :=
  match l.calls id with
  | some ⟨_, .returned (.ok t), _, _⟩ => t
  | _ => none

theorem registration_barrier_run :
    ∃ as l, Lts.runs step new as = some l ∧ l.returned 0 = some 0 ∧ Barrier as l 0 0 := by
  let as := bindScript 0 ++ handleScript 0 ++ [.recv 0]
  have hrun : (Lts.runs step new as).map (fun l => (l.returned 0, (l.calls 0).map (·.kind))) =
      some (some 0, some .addConnection) := by decide +kernel
  obtain ⟨l, hl, heq⟩ := Option.map_eq_some_iff.mp hrun
  obtain ⟨hreturned, hkind⟩ := Prod.mk.inj heq
  refine ⟨as, l, hl, hreturned, ?_⟩
  unfold returned at hreturned
  split at hreturned
  · rename_i hc
    rw [hc] at hkind
    exact (registration_barrier hl).2.1 0 _ 0 hc (Option.some.inj hkind)
      (by rw [hreturned])
  · cases hreturned

/-- The connection of the first call is done before the call has looked at
its answer, and another one gets its key. -/
theorem token_reused_run :
    (Lts.runs step new (bindScript 0 ++ handleScript 0 ++ [.poll [0], .event true] ++
      bindScript 1 ++ [.event false, .pop ⟨0, .ok (), false⟩, .recv 0])).map
      (fun l => (l.returned 0, l.connections 0)) = some (some 0, some ⟨1, 0⟩) := by
  decide +kernel

end SharedLoop

end Audioipc

import Audioipc.EventLoop

/-!
# No wake is lost while the loop's queue has room

A request in the queue of a live handler is `Awaited`: its caller has not
pushed its wake yet, or the wake is in the queue of the loop, or the loop is
at this connection and has not looked at the queue for the last time. And
with requests in its queue the loop does not block, or is about to be woken.
Together (`Woken`) this holds in every run in which no wake for a live
handler finds the queue of the loop full (`no_lost_wake`), and not in every
run (`lost_wake_run`).
-/

namespace Audioipc

section Wakes

variable {P Req Resp : Type} [Bincode Req] [AssociateHandleForMessage Req]
  [Bincode Resp] [AssociateHandleForMessage Resp]

/-! ## What a step does to the queue of a handler -/

section Queue

variable {pipe : PipeOps P} {c c' : ClientConnection P Req Resp} {w : List Tok}

/-- The queue is as it was, or nothing is left of it that matters. -/
def QueueKept (c c' : ClientConnection P Req Resp) : Prop :=
  c'.driver.handler.handler = .live → c'.driver.handler.queue ≠ [] →
    c.driver.handler.handler = .live ∧ c.driver.handler.queue ≠ [] ∧
      (c.phase.beforeDrained = true → c'.phase.beforeDrained = true)

omit [Bincode Req] [Bincode Resp] in
theorem QueueKept.of_closed {c₁ : ClientConnection P Req Resp}
    (h : c' = c₁.close clientOps ∨ ∃ p, c' = c₁.unwind clientOps p) : QueueKept c c' := by
  intro hlive
  rcases h with rfl | ⟨p, rfl⟩ <;> exact absurd hlive (drop_not_live _)

omit [Bincode Req] [Bincode Resp] in
theorem QueueKept.of_handler (hhandler : c'.driver.handler = c.driver.handler)
    (hphase : c.phase.beforeDrained = true → c'.phase.beforeDrained = true) :
    QueueKept c c' := by
  intro hlive hq
  rw [hhandler] at hlive hq
  exact ⟨hlive, hq, hphase⟩

omit [Bincode Req] [Bincode Resp] in
theorem recvInbound_queueKept {r : Except IoError Nat} {w' : List Tok}
    (h : c.recvInbound pipe clientOps w r = some (c', w')) : QueueKept c c' := by
  unfold Connection.recvInbound at h
  split at h
  · cases h
  · cases h
    exact .of_closed (Or.inr ⟨_, rfl⟩)
  · dsimp only at h
    split at h <;> cases h
    case h_5 => exact .of_closed (Or.inl rfl)
    case h_4 => exact .of_handler rfl id
    all_goals exact .of_handler rfl fun _ => rfl

omit [Bincode Req] in
theorem processInbound_queueKept (hph : c.phase = .process) {e : RpcAction (Item Req)}
    (h : c.processInbound clientOps e = some c') : QueueKept c c' := by
  unfold Connection.processInbound at h
  split at h
  · cases h
  · rename_i t hturn
    rcases FramedDriver.processItem_handler hturn with
      ⟨hitem, hhandler, hres⟩ | ⟨m, msg, hitem, hres, hcons⟩ | ⟨m, r, hitem, hres, hcons⟩
    · split at h <;> cases h
      · exact .of_closed (Or.inr ⟨_, rfl⟩)
      · exact .of_closed (Or.inl rfl)
      · exact .of_handler hhandler id
      · exact .of_handler hhandler fun _ => rfl
    · rw [hres] at h
      cases h
      exact .of_closed (Or.inr ⟨_, rfl⟩)
    · rw [hres] at h
      obtain ⟨hlive, ⟨err, -, hr, hs⟩ | ⟨i, inFlight, -,
        ⟨request, phase, item, -, hr, hs⟩ | ⟨-, msg, hr, -⟩⟩⟩ := ClientRpc.consume_cases hcons
      · cases hr
        cases h
        exact .of_closed (Or.inl rfl)
      · cases hr
        cases h
        intro _ hq
        rw [hs] at hq
        exact ⟨hlive, hq, fun _ => by simp [hph, Phase.beforeDrained]⟩
      · cases hr

omit [Bincode Resp] in
theorem flushOutbound_queueKept {done : Bool} (hph : c.phase = .flush done)
    {e : RpcAction (Item Req)} (h : c.flushOutbound clientOps done e = some c') :
    QueueKept c c' := by
  unfold Connection.flushOutbound at h
  split at h
  · cases h
  · rename_i t hturn
    rcases (FramedDriver.flushItem_cases hturn).2 with ⟨hprod, -, -, hres⟩ |
      ⟨err, -, -, -, hres⟩ | ⟨m, -, -, -, hres⟩ | ⟨m, hprod, -, hres, -⟩
    · -- the loop ends where the handler has found its queue empty
      rw [hres] at h
      cases h
      obtain ⟨-, ⟨_, _, _, hr, -⟩ | ⟨-, hempty, hs⟩ | ⟨_, hr, -⟩⟩ :=
        ClientRpc.produce_cases hprod
      · cases hr
      · intro _ hq
        rw [hs] at hq
        exact absurd hempty hq
      · cases hr
    · rw [hres] at h
      cases h
      exact .of_closed (Or.inl rfl)
    · rcases hres with ⟨err, hres⟩ | hres | ⟨hres, -⟩ <;> rw [hres] at h <;> cases h
      · exact .of_closed (Or.inl rfl)
      · exact .of_closed (Or.inr ⟨_, rfl⟩)
      · exact .of_closed (Or.inr ⟨_, rfl⟩)
    · rw [hres] at h
      cases h
      obtain ⟨hlive, ⟨i, request, queue, -, hq, -⟩ | ⟨hr, -⟩ | ⟨_, hr, -⟩⟩ :=
        ClientRpc.produce_cases hprod
      · intro _ _
        exact ⟨hlive, by simp [hq], fun _ => by simp [hph, Phase.beforeDrained]⟩
      · cases hr
      · cases hr

omit [Bincode Req] [Bincode Resp] in
theorem sendOutbound_queueKept {done : Bool} (hph : c.phase = .send done)
    {r : Except IoError Nat} {toks : List Tok}
    (h : c.sendOutbound pipe clientOps done r = some (c', toks)) : QueueKept c c' := by
  have hlate : c.phase.beforeDrained = true → c'.phase.beforeDrained = true := by
    simp [hph, Phase.beforeDrained]
  unfold Connection.sendOutbound at h
  split at h
  · cases h
  · split at h
    · cases h
    · cases h
      exact .of_closed (Or.inr ⟨_, rfl⟩)
    · dsimp only at h
      split at h <;> cases h
      · exact .of_closed (Or.inl rfl)
      · exact .of_handler rfl hlate
      · exact .of_handler rfl hlate
      · exact .of_handler rfl hlate
      · exact .of_closed (Or.inl rfl)

omit [Bincode Req] [Bincode Resp] in
theorem finish_queueKept {done registered : Bool} (hph : c.phase.beforeDrained = false) :
    QueueKept c (c.finish clientOps done registered) := by
  unfold Connection.finish
  split
  · exact .of_handler rfl (by simp [hph])
  · exact .of_closed (Or.inl rfl)

/-- A step of the loop thread that leaves something in the queue found
something there, and does not leave the part of the code in which the loop
will look again. -/
theorem clientStep_queue {a : ConnAction (RpcAction (Item Req))} (ha : a.isOther = false)
    (h : clientStep pipe c (w, a) = some c') : QueueKept c c' := by
  obtain ⟨⟨c₁, toks, w₁⟩, hstep, rfl⟩ := Option.map_eq_some_iff.mp h
  dsimp only at hstep
  unfold Connection.step at hstep
  split at hstep
  · rename_i readable hph
    cases hstep
    exact .of_handler rfl (by simp [hph, Phase.beforeDrained])
  · rename_i hph
    cases hstep
    exact .of_handler rfl (by simp [hph, Phase.beforeDrained])
  · cases hstep
    exact .of_closed (Or.inl rfl)
  · obtain ⟨⟨c₂, w₂⟩, hrecv, heq⟩ := Option.map_eq_some_iff.mp hstep
    cases heq
    exact recvInbound_queueKept hrecv
  · rename_i e hph
    obtain ⟨c₂, hproc, heq⟩ := Option.map_eq_some_iff.mp hstep
    cases heq
    exact processInbound_queueKept hph hproc
  · rename_i done e hph
    obtain ⟨c₂, hflush, heq⟩ := Option.map_eq_some_iff.mp hstep
    cases heq
    exact flushOutbound_queueKept hph hflush
  · rename_i done r hph
    obtain ⟨⟨c₂, toks₂⟩, hsend, heq⟩ := Option.map_eq_some_iff.mp hstep
    cases heq
    exact sendOutbound_queueKept hph hsend
  · rename_i done registered hph
    split at hstep
    · cases hstep
      exact finish_queueKept (by rw [hph]; rfl)
    · cases hstep
  · rename_i done registered hph
    cases hstep
    exact finish_queueKept (by rw [hph]; rfl)
  · cases ha
  · cases hstep

end Queue

namespace EventLoop

variable {l l' : EventLoop P Req Resp}

/-! ## The wakes -/

/-- Something makes the loop look at the queue of this connection again. -/
def Awaited (l : EventLoop P Req Resp) (id : ConnId) (e : Entry P Req Resp) : Prop :=
  (∃ i, (id, i) ∈ l.owing) ∨ .wakeConnection e.token ∈ l.requests ∨
    (l.phase.current = some id ∧ e.conn.phase.beforeDrained = true)

/-- Every live handler with requests in its queue is awaited, but for the
connections at one token. -/
def AwaitedBut (l : EventLoop P Req Resp) (token : Option Token) : Prop :=
  ∀ id e, l.entries id = some e → e.conn.driver.handler.handler = .live →
    e.conn.driver.handler.queue ≠ [] → some e.token = token ∨ l.Awaited id e

/-- The loop does not block on requests unless somebody is about to wake it
(`rung`). -/
structure Woken (l : EventLoop P Req Resp) : Prop where
  slabbed : l.Slabbed
  awaited : l.AwaitedBut none
  rung : l.requests ≠ [] → l.phase ≠ .polling ∨ l.waker = true ∨ 0 < l.ringing

/-- No wake for a live handler is dropped. -/
def WakeFits (l : EventLoop P Req Resp) : LoopAction P Req → Prop
  | .pushWake id _ => ∀ e ∈ l.entries id, e.conn.driver.handler.handler = .live →
      l.requests.length < EVENT_LOOP_INITIAL_CLIENTS
  | _ => True

instance decidableWakeFits (l : EventLoop P Req Resp) : ∀ a, Decidable (l.WakeFits a)
  | .pushWake id _ => inferInstanceAs (Decidable (∀ e ∈ l.entries id,
      e.conn.driver.handler.handler = .live → l.requests.length < EVENT_LOOP_INITIAL_CLIENTS))
  | .poll _ | .nextEvent | .popRequest _ | .conn .. | .caller .. | .pushRequest _ | .ring =>
      inferInstanceAs (Decidable True)

omit [Bincode Req] [Bincode Resp] in
theorem woken_new : (new : EventLoop P Req Resp).Woken :=
  ⟨slabbed_new, fun _ _ he => by simp [new] at he, (absurd rfl ·)⟩

omit [Bincode Req] [Bincode Resp] in
theorem Awaited.mono {id : ConnId} {e : Entry P Req Resp} (h : l.Awaited id e)
    (howing : ∀ i, (id, i) ∈ l.owing → (id, i) ∈ l'.owing)
    (hrequests : l.requests ⊆ l'.requests)
    (hcurrent : l.phase.current = some id → l'.phase.current = some id) : l'.Awaited id e := by
  rcases h with ⟨i, hi⟩ | hmem | ⟨hcur, hph⟩
  · exact Or.inl ⟨i, howing i hi⟩
  · exact Or.inr (Or.inl (hrequests hmem))
  · exact Or.inr (Or.inr ⟨hcurrent hcur, hph⟩)

omit [Bincode Req] [Bincode Resp] in
theorem AwaitedBut.mono {token : Option Token} (h : l.AwaitedBut token)
    (hentries : l'.entries = l.entries) (howing : l.owing ⊆ l'.owing)
    (hrequests : l.requests ⊆ l'.requests)
    (hcurrent : ∀ id, l.phase.current = some id → l'.phase.current = some id) :
    l'.AwaitedBut token := by
  intro id e he hlive hq
  rw [hentries] at he
  exact (h id e he hlive hq).imp_right fun h =>
    h.mono (fun i hi => howing hi) hrequests (hcurrent id)

omit [Bincode Req] [Bincode Resp] in
theorem AwaitedBut.awaited (h : l.AwaitedBut none) {id : ConnId} {e : Entry P Req Resp}
    (he : l.entries id = some e) (hlive : e.conn.driver.handler.handler = .live)
    (hq : e.conn.driver.handler.queue ≠ []) : l.Awaited id e :=
  (h id e he hlive hq).resolve_left (Option.some_ne_none _)

omit [Bincode Req] [Bincode Resp] in
/-- Only the connection that a step changes can come to wait in vain. -/
theorem AwaitedBut.setConn (h : l.AwaitedBut none) {id : ConnId} {e : Entry P Req Resp}
    {conn : ClientConnection P Req Resp} {l' : EventLoop P Req Resp}
    (hentries : l'.entries = (l.setConn id e conn).entries)
    (hothers : ∀ id' e', id' ≠ id → l.Awaited id' e' → l'.Awaited id' e')
    (hconn : conn.driver.handler.handler = .live → conn.driver.handler.queue ≠ [] →
      l'.Awaited id { e with conn }) : l'.AwaitedBut none := by
  intro id' e' he' hlive hq
  rw [hentries] at he'
  rcases setConn_entries he' with ⟨rfl, rfl⟩ | ⟨hne, he'⟩
  · exact Or.inr (hconn hlive hq)
  · exact (h id' e' he' hlive hq).imp_right (hothers id' e' hne)

omit [Bincode Req] [Bincode Resp] in
/-- A loop that enters the connection of a token needs no wake for it. -/
theorem AwaitedBut.enter {token : Token} (h : l.AwaitedBut (some token)) (hslabbed : l.Slabbed)
    (hcur : l.phase.current = none) {phase : ConnId → LoopPhase}
    (hphase : ∀ id, (phase id).current = some id)
    {start : ClientConnection P Req Resp → ClientConnection P Req Resp} (hstart : Starts start) :
    (l.enter token phase start).AwaitedBut none := by
  have hcases := enter_cases hslabbed token phase start
  rcases hcases with ⟨hslab, heq⟩ | ⟨id, e, hslab, he, rfl, heq⟩ <;> rw [heq] <;>
    intro id' e' he' hlive hq
  · rcases h id' e' he' hlive hq with htoken | hawaited
    · cases htoken
      rw [(hslabbed.live id' e' he' hlive).1] at hslab
      cases hslab
    · exact Or.inr hawaited
  · refine Or.inr ?_
    rcases setConn_entries he' with ⟨rfl, rfl⟩ | ⟨hne, he'⟩
    · exact Or.inr (Or.inr ⟨hphase id', hstart.phase e.conn⟩)
    · rcases h id' e' he' hlive hq with htoken | hawaited
      · -- the two have one token, and only one of them can be in the slab
        obtain ⟨hslab', -⟩ := hslabbed.live id' e' he' hlive
        rw [Option.some.inj htoken, hslab] at hslab'
        exact absurd (Option.some.inj hslab').symm hne
      · exact hawaited.mono (fun _ hi => hi) (List.Subset.refl _) fun h => by simp [hcur] at h

omit [Bincode Req] [Bincode Resp] in
theorem Awaited.bound {id : ConnId} {e : Entry P Req Resp} {io : P} {requests : List (Request P)}
    (h : l.Awaited id e) (hrequests : l.requests = .addConnection io :: requests) :
    ({ l with requests }).Awaited id e := by
  rcases h with howing | hmem | hcur
  · exact Or.inl howing
  · rw [hrequests] at hmem
    exact Or.inr (Or.inl ((List.mem_cons.mp hmem).resolve_left (by simp)))
  · exact Or.inr (Or.inr hcur)

/-- The step of the connection that the loop is at. -/
theorem AwaitedBut.atConn {pipe : PipeOps P} {w : List Tok}
    {a : ConnAction (RpcAction (Item Req))} {id : ConnId} {e : Entry P Req Resp}
    {conn : ClientConnection P Req Resp} (h : l.AwaitedBut none)
    (hat : l.AtConn pipe w a id e conn) (hentries : l'.entries = (l.setConn id e conn).entries)
    (howing : l'.owing = l.owing) (hrequests : l'.requests = l.requests)
    (hphase : conn.phase.beforeDrained = true → l'.phase = l.phase) : l'.AwaitedBut none := by
  refine h.setConn hentries (fun id' e' hne haw => ?_) fun hlive hq => ?_
  · -- the other connections are not the one the loop is at
    refine haw.mono (by simp [howing]) (by simp [hrequests]) fun hcur => ?_
    rw [hat.current] at hcur
    exact absurd (Option.some.inj hcur).symm hne
  · obtain ⟨hlive', hq', hdrained⟩ := clientStep_queue hat.own hat.step hlive hq
    rcases h.awaited hat.entry hlive' hq' with ⟨i, hi⟩ | hmem | ⟨-, hph⟩
    · exact Or.inl ⟨i, by rwa [howing]⟩
    · exact Or.inr (Or.inl (by rwa [hrequests]))
    · exact Or.inr (Or.inr ⟨by rw [hphase (hdrained hph), hat.current], hdrained hph⟩)

omit [Bincode Req] [Bincode Resp] in
theorem mem_erase_owing {id id' : ConnId} {i call : CallId} (hne : id' ≠ id)
    (hi : (id', i) ∈ l.owing) : (id', i) ∈ l.owing.erase (id, call) :=
  (List.mem_erase_of_ne (by simp [hne])).mpr hi

theorem step_awaited {pipe : PipeOps P} {a : LoopAction P Req} (h : l.Slabbed)
    (hawaited : l.AwaitedBut none) (hfits : l.WakeFits a) (hs : l.step pipe a = some l') :
    l'.AwaitedBut none := by
  cases step_cases hs with
  | polled hph | handled hph | popped hph =>
      exact hawaited.mono rfl (List.Subset.refl _) (List.Subset.refl _)
        fun id hcur => by simp [hph, LoopPhase.current] at hcur
  | @event token readable es hph =>
      have hevents : ({ l with phase := .events es }).Slabbed := h.leave _ (by simp) rfl
      have hbut : ({ l with phase := .events es }).AwaitedBut (some token) := by
        intro id e he hlive hq
        refine Or.inr ((hawaited.awaited he hlive hq).mono (fun _ hi => hi)
          (List.Subset.refl _) fun hcur => ?_)
        simp [hph, LoopPhase.current] at hcur
      exact hbut.enter hevents rfl (fun _ => rfl) (starts_handleEvent readable)
  | @woken _ token requests hph hrequests =>
      have hpopped : ({ l with requests }).Slabbed := h.congr rfl rfl rfl
      have hcur : l.phase.current = none := by rw [hph]; rfl
      have hbut : ({ l with requests }).AwaitedBut (some token) := by
        intro id e he hlive hq
        rcases hawaited.awaited he hlive hq with howing | hmem | ⟨hc, -⟩
        · exact Or.inr (Or.inl howing)
        · rw [hrequests] at hmem
          rcases List.mem_cons.mp hmem with htoken | hmem
          · cases htoken
            exact Or.inl rfl
          · exact Or.inr (Or.inr (Or.inl hmem))
        · rw [hcur] at hc
          cases hc
      exact hbut.enter hpopped hcur (fun _ => rfl) starts_handleWake
  | stopped =>
      intro id e he hlive
      obtain ⟨e', -, rfl⟩ := Option.map_eq_some_iff.mp he
      exact absurd hlive (drop_not_live _)
  | refused _ hrequests =>
      intro id e he hlive hq
      exact Or.inr ((hawaited.awaited he hlive hq).bound hrequests)
  | bound _ hrequests =>
      intro id e he hlive hq
      rcases Slab.insert_cases he with ⟨rfl, rfl⟩ | ⟨-, he⟩
      · exact absurd rfl hq
      · exact Or.inr ((hawaited.awaited he hlive hq).bound hrequests)
  | left hat hph | removed hat hph =>
      exact hawaited.atConn hat rfl rfl rfl fun hd => by simp [hph, Phase.beforeDrained] at hd
  | stayed hat => exact hawaited.atConn hat rfl rfl rfl fun _ => rfl
  | @caller id a e conn he _ hstep =>
      obtain ⟨hph, hlive, hqueue⟩ := clientStep_other id hstep
      refine hawaited.setConn rfl (fun id' e' _ haw => ?_) fun hl hq => ?_
      · exact haw.mono (fun i hi => List.mem_append_left _ hi) (List.Subset.refl _)
          fun hcur => hcur
      · rcases hqueue hq with hq | ⟨i, hi⟩
        · rcases hawaited.awaited he (hlive hl) hq with ⟨i, hi⟩ | hmem | ⟨hcur, hdrained⟩
          · exact Or.inl ⟨i, List.mem_append_left _ hi⟩
          · exact Or.inr (Or.inl hmem)
          · exact Or.inr (Or.inr ⟨hcur, by rw [← hdrained]; exact congrArg _ hph⟩)
        · exact Or.inl ⟨i, List.mem_append_right _ hi⟩
  | @pushedWake id call e he =>
      intro id' e' he' hlive hq
      refine Or.inr ?_
      by_cases hne : id' = id
      · subst hne
        rw [he] at he'
        cases he'
        exact Or.inr (Or.inl (by simp))
      · exact (hawaited.awaited he' hlive hq).mono (fun i => mem_erase_owing hne)
          (List.subset_append_left _ _) fun hcur => hcur
  | @lostWake id call e he howing hdone hroom =>
      intro id' e' he' hlive hq
      refine Or.inr ?_
      by_cases hne : id' = id
      · subst hne
        -- no wake for a live handler is dropped
        refine absurd ⟨fun hstop => ?_, hfits e' he' hlive⟩ hroom
        have := (h.live id' e' he' hlive).1
        rw [h.stopped hstop] at this
        cases this
      · exact (hawaited.awaited he' hlive hq).mono (fun i => mem_erase_owing hne)
          (List.Subset.refl _) fun hcur => hcur
  | pushedRequest =>
      exact hawaited.mono rfl (List.Subset.refl _) (List.subset_append_left _ _)
        fun _ hcur => hcur
  | lostRequest => exact hawaited
  | rung => exact hawaited.mono rfl (List.Subset.refl _) (List.Subset.refl _) fun _ hcur => hcur

omit [Bincode Req] [Bincode Resp] in
theorem enter_not_polling (h : l.phase ≠ .polling) {token : Token} {phase : ConnId → LoopPhase}
    {start : ClientConnection P Req Resp → ClientConnection P Req Resp}
    (hphase : ∀ id, phase id ≠ .polling) : (l.enter token phase start).phase ≠ .polling := by
  unfold enter
  split
  · exact h
  · split
    · exact h
    · exact hphase _

/-- Who pushes a request rings, and the loop blocks only with none left. -/
theorem step_rung {pipe : PipeOps P} {a : LoopAction P Req}
    (hrung : l.requests ≠ [] → l.phase ≠ .polling ∨ l.waker = true ∨ 0 < l.ringing)
    (hs : l.step pipe a = some l') :
    l'.requests ≠ [] → l'.phase ≠ .polling ∨ l'.waker = true ∨ 0 < l'.ringing := by
  cases step_cases hs with
  | polled | handled | stopped => exact fun _ => Or.inl (by simp)
  | event => exact fun _ => Or.inl (enter_not_polling (by simp) (by simp))
  | popped _ hrequests => exact (absurd hrequests ·)
  | woken hph => exact fun _ => Or.inl (enter_not_polling (by simp [hph]) (by simp))
  | refused hph | bound hph => exact fun _ => Or.inl (by simp [hph])
  | left hat | removed hat => exact fun _ => Or.inl (LoopPhase.next_of_current hat.current).2.1
  | stayed hat =>
      refine fun _ => Or.inl fun hph => ?_
      have hcur : l.phase.current = some _ := hat.current
      rw [show l.phase = _ from hph] at hcur
      cases hcur
  | caller | lostWake | lostRequest => exact hrung
  | pushedWake | pushedRequest => exact fun _ => Or.inr (Or.inr (Nat.succ_pos _))
  | rung => exact fun _ => Or.inr (Or.inl rfl)

theorem step_woken {pipe : PipeOps P} {a : LoopAction P Req} (h : l.Woken) (hfits : l.WakeFits a)
    (hs : l.step pipe a = some l') : l'.Woken :=
  ⟨step_slabbed h.slabbed hs, step_awaited h.slabbed h.awaited hfits hs,
    step_rung h.rung hs⟩

/-- In every state of every run in which no wake for a live handler finds the
queue of the loop full: a request in the queue of a live handler is awaited,
and if the loop is blocked with no signal to come, and no call has its wake
still to push, then nothing is left to do. -/
theorem no_lost_wake (pipe : PipeOps P) {as : List (LoopAction P Req)}
    (hfits : Lts.Within (step pipe) WakeFits (new : EventLoop P Req Resp) as)
    (hrun : Lts.runs (step pipe) new as = some l) :
    (∀ id e, l.entries id = some e → e.conn.driver.handler.handler = .live →
      e.conn.driver.handler.queue ≠ [] → l.Awaited id e) ∧
    (l.phase = .polling → l.waker = false → l.ringing = 0 → l.owing = [] →
      l.requests = [] ∧ ∀ id e, l.entries id = some e →
        e.conn.driver.handler.handler = .live → e.conn.driver.handler.queue = []) := by
  have hl : l.Woken := Lts.runs_within_invariant (fun _ _ _ => step_woken) woken_new hfits hrun
  have hawaited : ∀ id e, l.entries id = some e → e.conn.driver.handler.handler = .live →
      e.conn.driver.handler.queue ≠ [] → l.Awaited id e :=
    fun id e he hlive hq => hl.awaited.awaited he hlive hq
  refine ⟨hawaited, fun hph hwaker hringing howing => ?_⟩
  have hrequests : l.requests = [] := by
    by_contra hne
    rcases hl.rung hne with h | h | h
    · exact h hph
    · rw [hwaker] at h; cases h
    · omega
  refine ⟨hrequests, fun id e he hlive => ?_⟩
  by_contra hq
  rcases hawaited id e he hlive hq with ⟨i, hi⟩ | hmem | ⟨hcur, -⟩
  · rw [howing] at hi; cases hi
  · rw [hrequests] at hmem; cases hmem
  · rw [hph] at hcur; cases hcur

/-! ## Two runs -/

/-- A call up to the push of its wake. -/
def callScript (id : ConnId) (i : CallId) : List (LoopAction Unit Bool) :=
  [.caller id (.call i .bare), .caller id (.upgrade i), .caller id (.push i),
   .caller id (.release i), .pushWake id i]

/-- The loop takes on `n` connections. -/
def bindScript (n : Nat) : List (LoopAction Unit Bool) :=
  (List.range n).flatMap (fun _ => [.pushRequest (.addConnection ()), .ring]) ++
    [.poll [], .nextEvent] ++ (List.range n).map (fun id => .popRequest (some (id, id))) ++
    [.popRequest none]

/-- The wake of a connection with `n` requests of 13 bytes each. -/
def wakeScript (n : Nat) : List (LoopAction Unit Bool) :=
  .popRequest none :: List.replicate (n + 1) (.conn [] (.flushItem .cloneProxy)) ++
    List.replicate (min n 1) (.conn [] (.sendMsg (.ok (13 * n)))) ++ [.conn [] (.finish true)]

/-- The loop blocked with no signal to come, and connection `id` with a live
handler and `n` requests in its queue. -/
def blockedWith (id : ConnId) (n : Nat) (l : EventLoop Unit Bool Bool) : Bool :=
  decide (l.phase = .polling) && l.requests.isEmpty && !l.waker && l.ringing == 0 &&
    l.owing.isEmpty && (l.entries id).any fun e =>
      decide (e.conn.driver.handler.handler = .live) && e.conn.driver.handler.queue.length == n

theorem of_blockedWith {id : ConnId} {n : Nat} {l : EventLoop Unit Bool Bool}
    (h : blockedWith id n l = true) : l.phase = .polling ∧ l.requests = [] ∧ l.waker = false ∧
      l.ringing = 0 ∧ l.owing = [] ∧ ∃ e, l.entries id = some e ∧
        e.conn.driver.handler.handler = .live ∧ e.conn.driver.handler.queue.length = n := by
  simpa [blockedWith, and_assoc, Option.any_eq_true] using h

/-- One call on one connection. -/
theorem no_lost_wake_run : ∃ (l : EventLoop Unit Bool Bool) (e : Entry Unit Bool Bool),
    l.entries 0 = some e ∧ e.conn.driver.handler.handler = .live ∧
      e.conn.driver.handler.queue = [] := by
  let script : List (LoopAction Unit Bool) :=
    bindScript 1 ++ callScript 0 0 ++ [.ring, .poll [], .nextEvent] ++ wakeScript 1 ++
      [.popRequest none]
  have hblocked : (Lts.runs (step bytePipe) new script).any (blockedWith 0 0) = true := by
    decide +kernel
  have hfits : Lts.Within (step bytePipe) WakeFits (new : EventLoop Unit Bool Bool) script := by
    decide +kernel
  obtain ⟨l, hrun, hl⟩ := (Option.any_eq_true _ _).mp hblocked
  obtain ⟨hph, -, hwaker, hringing, howing, e, he, hlive, -⟩ := of_blockedWith hl
  have hidle := (no_lost_wake bytePipe hfits hrun).2 hph hwaker hringing howing
  exact ⟨l, e, he, hlive, hidle.2 0 e he hlive⟩

/-- 32 calls on each of two connections fill the queue of the loop, and the
wake of a call on a third one is dropped; the loop handles all 64 and blocks. -/
def lostWakeScript : List (LoopAction Unit Bool) :=
  bindScript 3 ++
    (List.range 32).flatMap (fun i => callScript 0 i ++ [.ring]) ++
    (List.range 32).flatMap (fun i => callScript 1 i ++ [.ring]) ++ callScript 2 0 ++
    [.poll [], .nextEvent] ++
    wakeScript 32 ++ (List.range 31).flatMap (fun _ => wakeScript 0) ++
    wakeScript 32 ++ (List.range 31).flatMap (fun _ => wakeScript 0) ++ [.popRequest none]

theorem lost_wake_run : ∃ (l : EventLoop Unit Bool Bool) (e : Entry Unit Bool Bool),
    Lts.runs (step bytePipe) new lostWakeScript = some l ∧
    l.phase = .polling ∧ l.requests = [] ∧ l.waker = false ∧ l.ringing = 0 ∧ l.owing = [] ∧
    l.entries 2 = some e ∧ e.conn.driver.handler.handler = .live ∧
    e.conn.driver.handler.queue ≠ [] := by
  have hblocked : (Lts.runs (step bytePipe) new lostWakeScript).any (blockedWith 2 1) = true := by
    decide +kernel
  obtain ⟨l, hrun, hl⟩ := (Option.any_eq_true _ _).mp hblocked
  obtain ⟨hph, hrequests, hwaker, hringing, howing, e, he, hlive, hlength⟩ := of_blockedWith hl
  refine ⟨l, e, hrun, hph, hrequests, hwaker, hringing, howing, he, hlive, fun hq => ?_⟩
  rw [hq] at hlength
  cases hlength

end EventLoop

end Wakes

end Audioipc

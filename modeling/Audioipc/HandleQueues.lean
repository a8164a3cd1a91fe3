import Audioipc.Agreement
import Audioipc.QueueCounts
import Audioipc.Server

/-!
# The bounded handle queues

A `ConnectionBuffer` has room for `HANDLE_QUEUE_LIMIT` handles, and
`push_handle` asserts that there is room. Nothing ties that limit to the
number of calls that may be outstanding: the request queue of a client holds
32 requests, the server processes all of those that have arrived before it
flushes the first response, and a partial send empties the sender's queue
while the receiver still has handles of incomplete messages.

With 17 calls of `StreamCreate` outstanding the assertion fails and the
server panics (`handle_queue_overrun_run`). It holds in exactly the runs that
are `Paced`: the server encodes only so many responses with a handle between
two sends, and so many descriptors come to the client ahead of their
messages. The queues are as long as that, and a step that finds no room
overruns (`hasRoom_iff`).

A run is paced as long as few calls are outstanding that are answered with a
handle (`FewCalls`), since what is queued or on its way belongs to one of
them; requests carry no handles.
-/

namespace Audioipc

/-! ## A client and the server of cubeb -/

/-- `impl rpccore::Server for CubebServer`. -/
def CubebServer.serve (out : Outcome) (s : CubebServer × Option CubebContextState)
    (msg : Item ServerMessage) :
    Except String (Item ClientMessage) × CubebServer × Option CubebContextState :=
  let (r, s) := CubebServer.process out s msg.body
  (r.mapError reprStr, s)

abbrev CubebConnection := Connection ControlBuffer ServerMessage ClientMessage
  (ServerHandler (CubebServer × Option CubebContextState) ServerMessage ClientMessage)

abbrev CubebClientConnection := Connection ControlBuffer ClientMessage ServerMessage
  (ClientRpc (Item ServerMessage) (Item ClientMessage))

/-- The connection of any number of client threads to their `CubebServer`. -/
abbrev CubebLink := Link ControlBuffer ServerMessage ClientMessage
  (ClientRpc (Item ServerMessage) (Item ClientMessage))
  (ServerHandler (CubebServer × Option CubebContextState) ServerMessage ClientMessage)

abbrev CubebAction := LinkAction (RpcAction (Item ServerMessage)) Outcome

section CubebLink

variable [Bincode ServerMessage] [Bincode ClientMessage]

def cubebStep (k : CubebLink) (a : CubebAction) : Option CubebLink :=
  Link.step unixPipe clientOps (serverOps CubebServer.serve) k a

def cubebStart (remotePid : Nat) (shmAreaSize : UInt64) : CubebLink :=
  .new .new .new (.new (.new remotePid shmAreaSize, none))

/-- The step runs into the failure of a bound: `push_handle` on the server's
outbound buffer or on the client's inbound buffer, or the array of one of the
two `send_msg`. -/
def Overruns (k : CubebLink) (a : CubebAction) (k' : CubebLink) : Prop :=
  match a with
  | .server (.flushItem _) =>
      k.server.panic = none ∧ k'.server.panic = some .handleQueueFull
  | .client (.recvMsg _) => k.client.panic = none ∧ k'.client.panic = some .handleQueueFull
  | .server (.sendMsg _) => k.server.panic = none ∧ k'.server.panic = some .handleArrayIndex
  | .client (.sendMsg _) => k.client.panic = none ∧ k'.client.panic = some .handleArrayIndex
  | _ => False

/-- No step that is possible here overruns. -/
def StaysInBounds (k : CubebLink) (a : CubebAction) : Prop :=
  ∀ k' ∈ cubebStep k a, ¬ Overruns k a k'

instance (k : CubebLink) (a : CubebAction) (k' : CubebLink) : Decidable (Overruns k a k') := by
  unfold Overruns; split <;> infer_instance

instance (k : CubebLink) (a : CubebAction) : Decidable (StaysInBounds k a) :=
  inferInstanceAs (Decidable (∀ k' ∈ cubebStep k a, ¬ Overruns k a k'))

/-- What the server has encoded up to its last send that took bytes. -/
def noteFlushed (_ : CubebLink) (a : CubebAction) (k : CubebLink) (flushed : Nat) : Nat :=
  match a with
  | .server a => flushedAfter k.server flushed a
  | .client _ => flushed

def pacedStep : CubebLink × Nat → CubebAction → Option (CubebLink × Nat) :=
  Lts.recording cubebStep noteFlushed

/-- The server encodes no more than `HANDLE_QUEUE_LIMIT` responses with a
handle between two sends that take bytes, and the descriptors that come to
the client are at most so many more than the responses with a handle that it
has received. -/
def Paced (s : CubebLink × Nat) (a : CubebAction) : Prop :=
  match a with
  | .server (.flushItem _) => ∀ m ∈ s.1.server.driver.handler.inFlight.head?,
      m.handle.isSome → Encodes m.body →
        (handlesOf s.1.server.log.sent).length < s.2 + HANDLE_QUEUE_LIMIT
  | .client (.recvMsg (.ok n)) => s.1.client.log.pushed.length +
      min HANDLE_QUEUE_LIMIT (fdsOf (splitBytes n s.1.down).1).length ≤
        (handlesOf s.1.client.log.received).length + HANDLE_QUEUE_LIMIT
  | _ => True

/-- There is room for what the step pushes. -/
def HasRoom (k : CubebLink) (a : CubebAction) : Prop :=
  match a with
  | .server (.flushItem _) => ∀ m ∈ k.server.driver.handler.inFlight.head?,
      m.handle.isSome → Encodes m.body → k.server.outbound.handles.length < HANDLE_QUEUE_LIMIT
  | .client (.recvMsg (.ok n)) => k.client.inbound.handles.length +
      min HANDLE_QUEUE_LIMIT (fdsOf (splitBytes n k.down).1).length ≤ HANDLE_QUEUE_LIMIT
  | _ => True

variable {k k' : CubebLink} {a : CubebAction}

theorem cubebStep_sendsNoHandles (h : SendsNoHandles k.client) (hs : cubebStep k a = some k') :
    SendsNoHandles k'.client := by
  have hplain : ∀ m : Item ServerMessage, m.handle = none := fun m =>
    Option.not_isSome_iff_eq_none.mp (by rw [m.attached]; exact Bool.false_ne_true)
  cases a with
  | client a =>
      obtain ⟨⟨c, toks, down⟩, hstep, rfl⟩ := Option.map_eq_some_iff.mp hs
      exact step_sendsNoHandles hplain h hstep
  | server a =>
      obtain ⟨⟨s, toks, up⟩, hstep, rfl⟩ := Option.map_eq_some_iff.mp hs
      exact h

omit [Bincode ServerMessage] in
/-- A turn of the server's `flush_outbound` produces the head of its queue,
and overruns if that finds no room. -/
theorem flush_overruns_iff {c c' : CubebConnection} {done : Bool} {e : Outcome}
    (hs : c.flushOutbound (serverOps CubebServer.serve) done e = some c')
    (hnone : c.panic = none) : c'.panic = some .handleQueueFull ↔
      ∃ m ∈ c.driver.handler.inFlight.head?, m.handle.isSome ∧ Encodes m.body ∧
        HANDLE_QUEUE_LIMIT ≤ c.outbound.handles.length := by
  unfold Connection.flushOutbound at hs
  split at hs
  · cases hs
  · rename_i t hturn
    have hpanic : c'.panic = some .handleQueueFull ↔ t.result = .error .handleQueueFull := by
      dsimp only at hs
      split at hs <;> cases hs <;> rename_i hres <;> rw [hres]
      · exact ⟨fun h => congrArg Except.error (Option.some.inj h),
          fun h => congrArg some (Except.error.inj h)⟩
      all_goals
        refine ⟨fun h => ?_, fun h => ?_⟩
        · cases hnone.symm.trans h
        · cases h
    rw [hpanic]
    cases hprod : (serverOps CubebServer.serve).produce e c.driver.handler with
    | none =>
        unfold FramedDriver.flushItem at hturn
        rw [hprod] at hturn
        cases hturn
    | some p =>
        obtain ⟨r, h⟩ := p
        have hproduce := hprod
        simp only [serverOps] at hproduce
        split at hproduce
        · cases hproduce
        · rename_i m rest _ hin
          cases hproduce
          rw [FramedDriver.flushItem_full hprod hturn, hin]
          constructor
          · rintro ⟨hencodes, hsome, hfull⟩
            exact ⟨m, rfl, hsome, hencodes, hfull⟩
          · rintro ⟨_, ⟨⟩, hsome, hencodes, hfull⟩
            exact ⟨hencodes, hsome, hfull⟩
        · rename_i hin
          cases hproduce
          rw [hin]
          constructor
          · intro h
            unfold FramedDriver.flushItem at hturn
            rw [hprod] at hturn
            cases hturn
            cases h
          · rintro ⟨m, hm, -⟩
            cases hm

omit [Bincode ServerMessage] [Bincode ClientMessage] in
/-- A receive overruns if what it takes finds no room. -/
theorem recv_overruns {c c' : CubebClientConnection} {w w' : List Tok} {n : Nat}
    (h : SendsNoHandles c)
    (hs : c.recvInbound unixPipe clientOps w (.ok n) = some (c', w'))
    (hfull : HANDLE_QUEUE_LIMIT < c.inbound.handles.length +
      min HANDLE_QUEUE_LIMIT (fdsOf (splitBytes n w).1).length) :
    c'.panic = some .handleQueueFull := by
  obtain ⟨hdecode, -⟩ := ControlBuffer.decodeHandles_recvControl_take h.clean
    (fdsOf (splitBytes n w).1)
  unfold Connection.recvInbound at hs
  simp only [unixPipe, Pipe.recvMsg, hdecode] at hs
  split at hs
  · cases hs
  · rename_i p hrecv
    cases hs
    split at hrecv
    · split at hrecv
      · rename_i hpush
        cases hrecv
        rw [(ConnectionBuffer.pushHandles_error hpush).1]
        rfl
      · cases hrecv
    · cases hrecv
  · rename_i res io inbound w₁ hrecv
    split at hrecv
    · split at hrecv
      · cases hrecv
      · rename_i b' hpush
        have hle := b'.handles_le
        rw [(ConnectionBuffer.pushHandles_ok hpush).2, List.length_append, List.length_take] at hle
        exact absurd hfull (Nat.not_lt.mpr hle)
    · cases hrecv

/-- What there is about a link besides its queues: the client sends no handles,
and what is up has not panicked. -/
structure Unharmed (k : CubebLink) : Prop where
  plain : SendsNoHandles k.client
  client : k.client.phase ≠ .removed → k.client.panic = none
  server : k.server.phase ≠ .removed → k.server.panic = none

/-- A step that is taken overruns exactly if it finds no room. -/
theorem hasRoom_iff (h : Unharmed k) (hs : cubebStep k a = some k') :
    HasRoom k a ↔ StaysInBounds k a := by
  have hbounds : StaysInBounds k a ↔ ¬ Overruns k a k' := by
    refine ⟨fun h => h k' hs, fun h k₁ hk₁ => ?_⟩
    obtain rfl := Option.some.inj (hk₁.symm.trans hs)
    exact h
  rw [hbounds]
  cases a with
  | client a =>
      obtain ⟨⟨c, toks, down⟩, hstep, rfl⟩ := Option.map_eq_some_iff.mp hs
      cases a with
      | recvMsg r =>
          obtain ⟨hph, hrecv⟩ := Connection.step_recvMsg hstep
          have hnone := h.client (by rw [hph]; nofun)
          cases r with
          | ok n =>
              refine ⟨fun hroom hover => ?_, fun hstays => ?_⟩
              · obtain ⟨_, ⟨⟩, hlt⟩ := (recvInbound_sendsNoHandles h.plain hrecv).2 hnone hover.2
                exact absurd hroom (Nat.not_le.mpr hlt)
              · by_contra hfull
                exact hstays ⟨hnone, recv_overruns h.plain hrecv (Nat.lt_of_not_le hfull)⟩
          | error e =>
              refine ⟨fun _ hover => ?_, fun _ => trivial⟩
              obtain ⟨_, ⟨⟩, -⟩ := (recvInbound_sendsNoHandles h.plain hrecv).2 hnone hover.2
      | sendMsg r =>
          obtain ⟨done, -, hsend⟩ := Connection.step_sendMsg hstep
          exact ⟨fun _ hover => sendOutbound_in_bounds hsend hover.1 hover.2, fun _ => trivial⟩
      | _ => exact ⟨fun _ hover => hover, fun _ => trivial⟩
  | server a =>
      obtain ⟨⟨s, toks, up⟩, hstep, rfl⟩ := Option.map_eq_some_iff.mp hs
      cases a with
      | flushItem e =>
          obtain ⟨done, hph, hflush⟩ := Connection.step_flushItem hstep
          have hnone := h.server (by rw [hph]; nofun)
          have hover := flush_overruns_iff hflush hnone
          refine ⟨fun hroom hfull => ?_, fun hstays m hm hsome hencodes => ?_⟩
          · obtain ⟨m, hm, hsome, hencodes, hle⟩ := hover.mp hfull.2
            exact absurd (hroom m hm hsome hencodes) (Nat.not_lt.mpr hle)
          · by_contra hle
            exact hstays ⟨hnone, hover.mpr ⟨m, hm, hsome, hencodes, Nat.le_of_not_lt hle⟩⟩
      | sendMsg r =>
          obtain ⟨done, -, hsend⟩ := Connection.step_sendMsg hstep
          exact ⟨fun _ hover => sendOutbound_in_bounds hsend hover.1 hover.2, fun _ => trivial⟩
      | _ => exact ⟨fun _ hover => hover, fun _ => trivial⟩

structure Counted (s : CubebLink × Nat) : Prop where
  plain : SendsNoHandles s.1.client
  client : s.1.client.phase ≠ .removed → ∃ flushed, Counts s.1.client flushed
  server : s.1.server.phase ≠ .removed → Counts s.1.server s.2

omit [Bincode ServerMessage] [Bincode ClientMessage] in
theorem Counted.unharmed {s : CubebLink × Nat} (h : Counted s) : Unharmed s.1 where
  plain := h.plain
  client hup := (h.client hup).elim fun _ h => h.panic
  server hup := (h.server hup).panic

omit [Bincode ServerMessage] [Bincode ClientMessage] in
theorem counted_start (remotePid : Nat) (shmAreaSize : UInt64) :
    Counted (cubebStart remotePid shmAreaSize, 0) where
  plain := ⟨rfl, rfl⟩
  client _ := ⟨0, rfl, rfl, rfl⟩
  server _ := ⟨rfl, rfl, rfl⟩

theorem counted_step {s s' : CubebLink × Nat} (h : Counted s) (hs : pacedStep s a = some s') :
    Counted s' := by
  obtain ⟨hstep, hnote⟩ := Lts.recording_eq_some hs
  obtain ⟨k', flushed'⟩ := s'
  obtain rfl : flushed' = noteFlushed s.1 a k' s.2 := hnote
  refine ⟨cubebStep_sendsNoHandles h.plain hstep, fun hup => ?_, fun hup => ?_⟩
  · cases a with
    | client a =>
        obtain ⟨⟨c, toks, down⟩, hconn, rfl⟩ := Option.map_eq_some_iff.mp hstep
        by_cases hold : s.1.client.phase = .removed
        · have hcounts : s.1.client.phase ≠ .removed → Counts s.1.client 0 :=
            fun hne => absurd hold hne
          exact ⟨_, step_counts hcounts hconn hup⟩
        · obtain ⟨flushed, hcounts⟩ := h.client hold
          exact ⟨_, step_counts (fun _ => hcounts) hconn hup⟩
    | server a =>
        obtain ⟨⟨c, toks, up⟩, hconn, rfl⟩ := Option.map_eq_some_iff.mp hstep
        exact h.client hup
  · cases a with
    | client a =>
        obtain ⟨⟨c, toks, down⟩, hconn, rfl⟩ := Option.map_eq_some_iff.mp hstep
        exact h.server hup
    | server a =>
        obtain ⟨⟨c, toks, up⟩, hconn, rfl⟩ := Option.map_eq_some_iff.mp hstep
        exact step_counts h.server hconn hup

/-- A step that is taken finds room exactly if the run is paced there. -/
theorem paced_iff {s s' : CubebLink × Nat} (h : Counted s) (hs : pacedStep s a = some s') :
    Paced s a ↔ HasRoom s.1 a := by
  obtain ⟨hstep, -⟩ := Lts.recording_eq_some hs
  cases a with
  | client a =>
      obtain ⟨⟨c, toks, down⟩, hconn, -⟩ := Option.map_eq_some_iff.mp hstep
      cases a with
      | recvMsg r =>
          cases r with
          | ok n =>
              obtain ⟨hph, -⟩ := Connection.step_recvMsg hconn
              obtain ⟨flushed, hcounts⟩ := h.client (by rw [hph]; nofun)
              have hinbound := hcounts.inbound
              simp only [Paced, HasRoom]
              omega
          | error e => exact Iff.rfl
      | _ => exact Iff.rfl
  | server a =>
      obtain ⟨⟨c, toks, up⟩, hconn, -⟩ := Option.map_eq_some_iff.mp hstep
      cases a with
      | flushItem e =>
          obtain ⟨done, hph, -⟩ := Connection.step_flushItem hconn
          have houtbound := (h.server (by rw [hph]; nofun)).outbound
          simp only [Paced, HasRoom, ← houtbound, Nat.add_lt_add_iff_left]
      | _ => exact Iff.rfl

/-! ## The calls that are outstanding -/

/-- The response to such a request, if it is no error, has a handle. -/
def ServerMessage.answeredWithHandle : ServerMessage → Bool
  | .streamCreate _ | .streamInit _ | .contextSetupDeviceCollectionCallback => true
  | _ => false

/-- The requests that were accepted and not answered yet. -/
def outstanding (k : CubebLink) : List (Item ServerMessage) :=
  (k.client.driver.handler.accepted.map Prod.snd).drop k.client.driver.handler.completed.length

def FewCalls (k : CubebLink) : Prop :=
  ((outstanding k).filter fun m => m.body.answeredWithHandle).length ≤ HANDLE_QUEUE_LIMIT

instance (k : CubebLink) : Decidable (FewCalls k) := inferInstanceAs (Decidable (_ ≤ _))

omit [Bincode ServerMessage] [Bincode ClientMessage] in
theorem tryStream_plain {α : Type} {s : CubebServer} {token : Nat} {r : Except CubebError α}
    {f : α → Item ClientMessage} {m : Item ClientMessage} (hf : ∀ a, (f a).handle = none)
    (h : s.tryStream token r f = .ok m) : m.handle = none := by
  unfold CubebServer.tryStream at h
  split at h
  · cases h
    rfl
  · split at h
    · cases h
    · split at h <;> cases h
      · exact hf _
      · rfl

omit [Bincode ServerMessage] [Bincode ClientMessage] in
theorem processMsg_plain {out : Outcome} {context : Context}
    {manager : CubebDeviceCollectionManager} {s : CubebServer} {msg : ServerMessage}
    {served : CubebServer.Served}
    (hmsg : msg.answeredWithHandle = false)
    (h : s.processMsg out context manager msg = .ok served) : served.response.handle = none := by
  have hstream : ∀ {α : Type} {token : Nat} {r : Except CubebError α}
      {f : α → Item ClientMessage}, (∀ a, (f a).handle = none) →
      (do return (⟨← s.tryStream token r f, s, context, manager⟩ : CubebServer.Served) :
        Except ServerPanic _) = .ok served → served.response.handle = none := by
    intro α token r f hf h
    cases ht : s.tryStream token r f with
    | error p =>
        rw [ht] at h
        cases h
    | ok m =>
        rw [ht] at h
        cases h
        exact tryStream_plain hf ht
  cases msg with
  | streamCreate | streamInit | contextSetupDeviceCollectionCallback => cases hmsg
  | clientConnect =>
      simp only [CubebServer.processMsg] at h
      split at h <;> cases h
      rfl
  | contextGetDeviceEnumeration =>
      simp only [CubebServer.processMsg] at h
      split at h <;> cases h <;> rfl
  | contextRegisterDeviceCollectionChanged deviceType enable =>
      simp only [CubebServer.processMsg, CubebServer.processRegisterDeviceCollectionChanged] at h
      split at h
      · cases h
        rfl
      · split at h
        · cases h
        · split at h <;> cases h <;> rfl
  | streamDestroy =>
      simp only [CubebServer.processMsg] at h
      split at h <;> cases h <;> rfl
  | promoteThreadToRealTime =>
      simp only [CubebServer.processMsg] at h
      split at h <;> cases h
      rfl
  | clientDisconnect | contextGetBackendId =>
      cases h
      rfl
  | contextGetMaxChannelCount | contextGetMinLatency | contextGetPreferredSampleRate
  | contextGetSupportedInputProcessingParams =>
      cases h
      dsimp only
      split <;> rfl
  | streamStart | streamStop | streamGetPosition | streamGetLatency | streamGetInputLatency
  | streamSetVolume | streamSetName | streamGetCurrentDevice | streamSetInputMute
  | streamSetInputProcessingParams | streamRegisterDeviceChangeCallback =>
      exact hstream (fun _ => rfl) h

omit [Bincode ServerMessage] [Bincode ClientMessage] in
theorem serve_handle {out : Outcome} {s s' : CubebServer × Option CubebContextState}
    {msg : Item ServerMessage} {response : Item ClientMessage}
    (h : CubebServer.serve out s msg = (.ok response, s')) (hsome : response.handle.isSome) :
    msg.body.answeredWithHandle = true := by
  by_contra hmsg
  have hmsg := Bool.eq_false_iff.mpr hmsg
  suffices hnone : response.handle = none by
    rw [hnone] at hsome
    cases hsome
  unfold CubebServer.serve CubebServer.process at h
  dsimp only at h
  split at h
  · cases h
    rfl
  · split at h
    · cases h
    · rename_i served hserved
      cases h
      exact processMsg_plain hmsg hserved

/-- What is known of the two ends of a link on clean pipes. -/
structure InOrder (k : CubebLink) : Prop where
  link : k.Inv ControlBuffer.Clean
  client : ClientInv k.client.driver.handler k.client.log.sent k.client.log.received
  server : ServerOrder k.server.driver.handler k.server.log.sent k.server.log.received
  live : k.server.phase ≠ .removed → k.server.driver.handler.dropped = false
  handles : ∀ p ∈ k.server.driver.handler.processed, p.2.handle.isSome →
    p.1.body.answeredWithHandle = true

theorem inOrder_start (remotePid : Nat) (shmAreaSize : UInt64) :
    InOrder (cubebStart remotePid shmAreaSize) where
  link := Link.inv_new (show ControlBuffer.Clean .new from rfl) _ _
  client := ⟨ClientRpc.ownership_new, ClientRpc.results_new, ClientRpc.clientOrder_new⟩
  server := ⟨rfl, List.prefix_refl _, fun _ => rfl⟩
  live _ := rfl
  handles := fun _ hp => absurd hp List.not_mem_nil

omit [Bincode ServerMessage] [Bincode ClientMessage] in
theorem serverHandles : HandlerInv (serverOps CubebServer.serve) fun h _ _ =>
    ∀ p ∈ h.processed, p.2.handle.isSome → p.1.body.answeredWithHandle = true :=
  serverAnswers (R := fun (m : Item ServerMessage) (response : Item ClientMessage) =>
    response.handle.isSome → m.body.answeredWithHandle = true)
    fun _ _ _ _ _ => serve_handle

theorem inOrder_step [LawfulBincode ServerMessage] [LawfulBincode ClientMessage] (h : InOrder k)
    (hgood : Link.GoodSends SendKeepsClean k a) (hs : cubebStep k a = some k') : InOrder k' := by
  have hlink := Link.step_inv unixPipe_lawful h.link hgood hs
  rcases Link.step_handled hs with ⟨hhandled, hsame⟩ | ⟨hhandled, hsame⟩
  · exact ⟨hlink, clientInv.handled h.client hhandled, hsame ▸ h.server, hsame ▸ h.live,
      hsame ▸ h.handles⟩
  · exact ⟨hlink, hsame ▸ h.client, serverOrder.handled h.server hhandled,
      serverLive.handled h.live hhandled,
      serverHandles.handled h.handles hhandled⟩

omit [Bincode ServerMessage] [Bincode ClientMessage] in
theorem length_handlesOf_le {ps : List (Item ServerMessage × Item ClientMessage)}
    (h : ∀ p ∈ ps, p.2.handle.isSome → p.1.body.answeredWithHandle = true) :
    (handlesOf (ps.map Prod.snd)).length ≤
      ((ps.map Prod.fst).filter fun m => m.body.answeredWithHandle).length := by
  induction ps with
  | nil => exact Nat.le_refl _
  | cons p ps ih =>
      have hrest := ih fun q hq => h q (List.mem_cons_of_mem _ hq)
      rw [List.map_cons, handlesOf_cons, List.length_append, List.map_cons]
      cases hp : p.2.handle with
      | none =>
          rw [Option.toList_none, List.length_nil, Nat.zero_add]
          exact Nat.le_trans hrest ((List.sublist_cons_self ..).filter _).length_le
      | some handle =>
          have hanswered := h p (List.mem_cons_self ..) (by rw [hp]; rfl)
          rw [Option.toList_some, List.length_singleton, List.filter_cons, if_pos hanswered,
            List.length_cons]
          omega

/-- The responses that the client has not received answer calls that are
outstanding. -/
theorem InOrder.handles_le (h : InOrder k) (hfew : FewCalls k) {ms : List (Item ClientMessage)}
    (hms : k.client.log.received ++ ms <+: k.server.driver.handler.processed.map Prod.snd) :
    (handlesOf ms).length ≤ HANDLE_QUEUE_LIMIT := by
  let processed := k.server.driver.handler.processed
  let received := k.client.log.received.length
  let completed := k.client.driver.handler.completed.length
  have hreceived : completed ≤ received := by
    simpa [completed, received] using h.client.order.consumed.length_le
  have hleft : ms <+: (processed.drop received).map Prod.snd := by
    obtain ⟨rest, hrest⟩ := hms
    refine ⟨rest, ?_⟩
    rw [List.map_drop, ← hrest, List.append_assoc]
    exact (List.drop_left ..).symm
  have haccepted : processed.map Prod.fst <+:
      k.client.driver.handler.accepted.map Prod.snd := by
    rw [h.server.processed]
    exact (h.link.received_prefix.1.trans h.client.order.produced).trans
      (h.client.order.popped.map Prod.snd)
  have hanswered : ((processed.drop received).map Prod.fst).Sublist (outstanding k) := by
    have hdrop : ((processed.drop received).map Prod.fst).Sublist
        ((processed.map Prod.fst).drop completed) := by
      rw [List.map_drop]
      exact List.drop_sublist_drop_left _ hreceived
    exact hdrop.trans (haccepted.sublist.drop _)
  calc (handlesOf ms).length
      ≤ (handlesOf ((processed.drop received).map Prod.snd)).length := by
        obtain ⟨rest, hrest⟩ := hleft
        rw [← hrest, handlesOf_append, List.length_append]
        exact Nat.le_add_right _ _
    _ ≤ (((processed.drop received).map Prod.fst).filter fun m =>
          m.body.answeredWithHandle).length :=
        length_handlesOf_le fun p hp => h.handles p (List.mem_of_mem_drop hp)
    _ ≤ ((outstanding k).filter fun m => m.body.answeredWithHandle).length :=
        (hanswered.filter _).length_le
    _ ≤ HANDLE_QUEUE_LIMIT := hfew

/-- While few calls are outstanding a step finds room. -/
theorem InOrder.hasRoom (h : InOrder k) (hfew : FewCalls k) (hs : cubebStep k a = some k') :
    HasRoom k a := by
  obtain ⟨pending, hdown⟩ := h.link.down
  have hsent : k.server.log.sent = k.client.log.received ++ pending := hdown.lane.messages
  have hhandles : k.client.inbound.handles ++ fdsOf k.down ++ k.server.outbound.handles =
      handlesOf pending := hdown.lane.handles
  have hlength := congrArg List.length hhandles
  rw [List.length_append, List.length_append] at hlength
  cases a with
  | client a =>
      cases a with
      | recvMsg r =>
          cases r with
          | ok n =>
              have hle := h.handles_le hfew (hsent ▸ h.server.produced)
              have hfds : (fdsOf (splitBytes n k.down).1).length ≤ (fdsOf k.down).length := by
                conv_rhs => rw [← splitBytes_append n k.down, fdsOf_append, List.length_append]
                exact Nat.le_add_right _ _
              simp only [HasRoom]
              omega
          | error e => trivial
      | _ => trivial
  | server a =>
      cases a with
      | flushItem e =>
          intro m hm hsome _
          obtain ⟨rest, hinFlight⟩ := List.head?_eq_some_iff.mp hm
          obtain ⟨⟨c, toks, up⟩, hconn, -⟩ := Option.map_eq_some_iff.mp hs
          obtain ⟨done, hph, -⟩ := Connection.step_flushItem hconn
          have hproduced := h.server.awaiting (h.live (by rw [hph]; nofun))
          rw [hsent, List.append_assoc] at hproduced
          have hle := h.handles_le hfew ⟨[], by rw [List.append_nil, ← hproduced]⟩
          obtain ⟨handle, hhandle⟩ := Option.isSome_iff_exists.mp hsome
          rw [handlesOf_append, hinFlight, handlesOf_cons, hhandle] at hle
          simp only [List.length_append, Option.toList_some, List.length_singleton] at hle
          omega
      | _ => trivial

/-! ## The queues of every run -/

/-- A run overruns no queue of handles, and not the array that `send_msg`
copies it to, exactly if it is paced. It is, if all along at most
`HANDLE_QUEUE_LIMIT` calls are outstanding that are answered with a handle,
and no send that would block is entered with handles queued. -/
theorem handle_queues_hold (remotePid : Nat) (shmAreaSize : UInt64) {as : List CubebAction}
    {k : CubebLink} (hrun : Lts.runs cubebStep (cubebStart remotePid shmAreaSize) as = some k) :
    (Lts.Within pacedStep Paced (cubebStart remotePid shmAreaSize, 0) as ↔
      Lts.Within cubebStep StaysInBounds (cubebStart remotePid shmAreaSize) as) ∧
    (∀ [LawfulBincode ServerMessage] [LawfulBincode ClientMessage],
      Lts.Within cubebStep (fun k a => FewCalls k ∧ Link.GoodSends SendKeepsClean k a)
        (cubebStart remotePid shmAreaSize) as →
      Lts.Within cubebStep StaysInBounds (cubebStart remotePid shmAreaSize) as) := by
  have hstart := counted_start remotePid shmAreaSize
  obtain ⟨flushed, hpaced⟩ := Lts.runs_recording noteFlushed (r := 0) hrun
  have hroom : Lts.Within pacedStep (fun s a => HasRoom s.1 a)
      (cubebStart remotePid shmAreaSize, 0) as ↔
      Lts.Within cubebStep StaysInBounds (cubebStart remotePid shmAreaSize) as := by
    refine (Lts.within_iff_of_runs (fun s a t h _ hs => counted_step h hs) (fun s a t h hs => ?_)
      hstart hpaced).trans Lts.within_recording
    exact hasRoom_iff h.unharmed (Lts.recording_eq_some hs).1
  refine ⟨(Lts.within_iff_of_runs (fun s a t h _ hs => counted_step h hs)
    (fun s a t h hs => paced_iff h hs) hstart hpaced).trans hroom, fun hfew => hroom.mp ?_⟩
  refine Lts.within_recording.mpr (Lts.Within.imp_of_runs ?_ ?_ (inOrder_start _ _) hfew hrun)
  · exact fun k a k' h hG hs => inOrder_step h hG.2 hs
  · exact fun k a k' h hG hs => h.hasRoom hG.1 hs

end CubebLink

/-! ## Runs with calls of `StreamCreate` -/

/-- What the client asks for in these runs: 48 kHz stereo output. -/
def outputStream : StreamCreateParams where
  streamName := none
  inputDevice := 0
  inputStreamParams := none
  outputDevice := 0
  outputStreamParams := some ⟨CUBEB_SAMPLE_FLOAT32LE, 48000, 2, 0, 0, 0⟩
  latencyFrames := 1024

/-- The bytes bincode writes for the request. -/
def outputStreamBytes : Bytes := [10, 0, 0, 0, 0, 1, 2, 251, 128, 187, 2, 0, 0, 0, 251, 0, 4]

/-- bincode at the one request of these runs. -/
local instance : Bincode ServerMessage where
  serializeInto m :=
    if m = .streamCreate outputStream then (outputStreamBytes, .ok ())
    else ([], .error (.other "not in these runs"))
  deserialize bytes :=
    if bytes = outputStreamBytes then .ok (.streamCreate outputStream)
    else .error (.other "not in these runs")

/-- bincode at small responses to it; the byte 1 is the emptied handle. -/
local instance : Bincode ClientMessage where
  serializeInto
    | .streamCreated token shmAreaSize =>
        if token < 251 ∧ shmAreaSize < 251 then
          ([10, .ofNat token, 1, .ofNat shmAreaSize.toNat], .ok ())
        else ([], .error (.other "not in these runs"))
    | _ => ([], .error (.other "not in these runs"))
  deserialize
    | [10, token, 1, shmAreaSize] => .ok (.streamCreated token.toNat (.ofNat shmAreaSize.toNat))
    | _ => .error (.other "not in these runs")

/-- `n` threads call, the client sends their requests, and the server
processes all of them before it starts to flush. -/
def requestsScript (n : Nat) : List CubebAction :=
  let request : Item ServerMessage := .plain (.streamCreate outputStream) rfl
  let idle : RpcAction (Item ServerMessage) := .cloneProxy
  let bytes := n * 29
  ((List.range n).flatMap fun i =>
      [.client (.other (.call i request)), .client (.other (.upgrade i)),
       .client (.other (.push i)), .client (.other (.release i))]) ++
    .client .wake :: List.replicate (n + 1) (.client (.flushItem idle)) ++
    [.client (.sendMsg (.ok bytes)), .client (.finish true),
     .server (.event true), .server (.recvMsg (.ok bytes))] ++
    (List.range n).map (fun i => .server (.processItem (.success i))) ++
    [.server (.processItem (.success 0)), .server (.recvMsg (.error .wouldBlock))]

/-- `n` responses are flushed and received, with their handles. -/
def responsesScript (n : Nat) : List CubebAction :=
  List.replicate (n + 1) (.server (.flushItem (.success 0))) ++
    [.server (.sendMsg (.ok (n * 16))), .server (.finish true),
     .client (.event true), .client (.recvMsg (.ok (n * 16)))] ++
    List.replicate n (.client (.processItem .cloneProxy))

local instance : LawfulBincode ServerMessage where
  deserialize_serializeInto := by
    intro m p h
    simp only [Bincode.serializeInto] at h
    split at h <;> cases h
    rename_i hm
    rw [hm]
    rfl

local instance : LawfulBincode ClientMessage where
  deserialize_serializeInto := by
    intro m p h
    simp only [Bincode.serializeInto] at h
    split at h
    · rename_i token shmAreaSize
      split at h <;> cases h
      rename_i hsmall
      have htoken : (UInt8.ofNat token).toNat = token := by
        rw [UInt8.toNat_ofNat']
        omega
      have hsize : (UInt8.ofNat shmAreaSize.toNat).toNat = shmAreaSize.toNat := by
        have := UInt64.lt_iff_toNat_lt.mp hsmall.2
        rw [UInt8.toNat_ofNat']
        exact Nat.mod_eq_of_lt (Nat.lt_trans this (by decide))
      simp only [Bincode.deserialize, htoken, hsize, UInt64.ofNat_toNat]
    · cases h

/-- Three calls are outstanding together. -/
theorem handle_queues_hold_run : ∃ k,
    Lts.runs cubebStep (cubebStart 1 64) (requestsScript 3 ++ responsesScript 3) = some k ∧
      handlesOf k.client.log.received = [100, 100, 100] ∧
      Lts.Within pacedStep Paced (cubebStart 1 64, 0) (requestsScript 3 ++ responsesScript 3) ∧
      Lts.Within cubebStep StaysInBounds (cubebStart 1 64)
        (requestsScript 3 ++ responsesScript 3) := by
  have hrun : (Lts.runs cubebStep (cubebStart 1 64) (requestsScript 3 ++ responsesScript 3)).map
      (fun k => handlesOf k.client.log.received) = some [100, 100, 100] := by
    decide +kernel
  obtain ⟨k, hk, heq⟩ := Option.map_eq_some_iff.mp hrun
  obtain ⟨hpaced, hfew⟩ := handle_queues_hold 1 64 hk
  have hstays := hfew (by decide +kernel)
  exact ⟨k, hk, heq, hpaced.mpr hstays, hstays⟩

/-- 17 calls are outstanding. Their responses are flushed, and the last one
finds the queue full. -/
theorem handle_queue_overrun_run :
    ((Lts.runs cubebStep (cubebStart 1 64) (requestsScript 17 ++
        List.replicate 17 (.server (.flushItem (.success 0))))).map fun k =>
      (k.server.panic, k.server.outbound.handles.length)) = some (some .handleQueueFull, 16) ∧
      ¬ Lts.Within cubebStep StaysInBounds (cubebStart 1 64) (requestsScript 17 ++
        List.replicate 17 (.server (.flushItem (.success 0)))) := by
  constructor <;> decide +kernel

end Audioipc

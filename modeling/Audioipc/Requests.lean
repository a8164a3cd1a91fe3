import Audioipc.Agreement

/-!
# The requests of a client

What one step of a client and a server connection does to the calls of the
client (`Progress`) and to its server (`Serves`). The requests that the
queue has accepted are processed one by one, each by the server that the one
before has left: `Link.next` is the one whose turn it is.

Both speak about all steps but the start of a call, and `rpcStep_call` is
about that one. Who makes calls depending on the results of earlier ones
builds on these three.
-/

namespace Audioipc

/-! ## The calls -/

/-- A caller still owns its request only as long as the queue has not accepted it. -/
theorem Call.not_owns {α β : Type} {c : Call α β} (h : c.refused = false) : c.owns = false := by
  obtain ⟨request, phase, item, writer⟩ := c
  cases phase with
  | pushing | upgraded => cases h
  | _ => rfl

/-- The same call, later: the queue may have decided about its request. -/
def Call.Goes {α β : Type} (c c' : Call α β) : Prop :=
  c'.request = c.request ∧ (c'.owns = true → c.owns = true)

namespace ClientRpc

variable {α β : Type} {s s' : ClientRpc α β}

/-- No call starts, and at most one request is accepted. -/
structure Progress (s s' : ClientRpc α β) : Prop where
  calls : ∀ i, (s.calls i = none ∧ s'.calls i = none) ∨
    ∃ c c', s.calls i = some c ∧ s'.calls i = some c' ∧ Call.Goes c c'
  accepted : s'.accepted = s.accepted ∨ ∃ i c, s.calls i = some c ∧ c.owns = true ∧
    s'.accepted = s.accepted ++ [(i, c.request)] ∧ ∀ c', s'.calls i = some c' → c'.owns = false

theorem Progress.of_same (hcalls : s'.calls = s.calls) (haccepted : s'.accepted = s.accepted) :
    Progress s s' := by
  refine ⟨fun i => ?_, Or.inl haccepted⟩
  rw [hcalls]
  cases hc : s.calls i with
  | none => exact Or.inl ⟨rfl, rfl⟩
  | some c => exact Or.inr ⟨c, c, rfl, rfl, rfl, id⟩

theorem Progress.of_call {i : CallId} {c c' : Call α β} (hc : s.calls i = some c)
    (hcalls : s'.calls = Function.update s.calls i (some c')) (hgoes : Call.Goes c c')
    (haccepted : s'.accepted = s.accepted) : Progress s s' := by
  refine ⟨fun j => ?_, Or.inl haccepted⟩
  rw [hcalls]
  by_cases hj : j = i
  · subst hj
    exact Or.inr ⟨c, c', hc, Function.update_self .., hgoes⟩
  · rw [Function.update_of_ne hj]
    exact (Progress.of_same (s := s) rfl rfl).calls j

theorem Progress.of_dropWriter {i : CallId}
    (hcalls : s'.calls = (s.dropCompletionWriter i).calls)
    (haccepted : s'.accepted = s.accepted) : Progress s s' := by
  cases hc : s.calls i with
  | none =>
      refine .of_same ?_ haccepted
      rw [hcalls, dropCompletionWriter, hc]
      exact Function.update_eq_self_iff.mpr hc.symm
  | some c =>
      have hupdate : s'.calls = Function.update s.calls i (some { c with writer := false }) := by
        rw [hcalls, dropCompletionWriter, hc]
        rfl
      exact .of_call hc hupdate ⟨rfl, id⟩ haccepted

/-- `Progress` is about one step, but the drop of a handler accepts nothing. -/
theorem Progress.then_drop (h : Progress s s') : Progress s s'.drop := ⟨h.calls, h.accepted⟩

theorem progress_other {a : RpcAction α} (hcall : ∀ i r, a ≠ .call i r)
    (hs : s.other a = some s') : Progress s s' := by
  cases other_cases hs with
  | @call i request => exact absurd rfl (hcall i request)
  | cloneProxy | dropProxy | droppedQueue | emptied => exact .of_same rfl rfl
  | upgraded hc | gone hc | full hc => exact .of_call hc rfl ⟨rfl, fun _ => rfl⟩ rfl
  | @accepted i request item writer hc =>
      have hgoes : Progress s (s.setCall i ⟨request, .pushed true, item, writer⟩) :=
        .of_call hc rfl ⟨rfl, fun _ => rfl⟩ rfl
      refine ⟨hgoes.calls, Or.inr ⟨i, _, hc, rfl, rfl, fun c' hc' => ?_⟩⟩
      simp only [setCall, Function.update_self, Option.some.injEq] at hc'
      rw [← hc']
      rfl
  | @released i request ok item writer hc =>
      refine .of_call hc rfl ⟨rfl, fun howns => ?_⟩ rfl
      split at howns
      · cases ok <;> cases howns
      · cases howns
  | @drained i request ok item writer hc =>
      refine .of_call hc rfl ⟨rfl, fun howns => ?_⟩ rfl
      cases ok <;> cases howns
  | finished hc | failed hc =>
      refine .of_call hc rfl ⟨rfl, fun howns => ?_⟩ rfl
      cases howns
  | drainedOne | droppedWriter | drainedQueue => exact .of_dropWriter rfl rfl

theorem progress_consume {response : β} {r : Except String (Except IoError Unit)}
    (hs : s.consume response = some (r, s')) : Progress s s' := by
  rcases (consume_cases hs).2 with ⟨-, -, -, rfl⟩ | ⟨i, inFlight, -, h⟩
  · exact .of_same rfl rfl
  · rcases h with ⟨request, phase, item, hc, -, rfl⟩ | ⟨-, msg, -, rfl⟩
    · exact .of_call hc rfl ⟨rfl, id⟩ rfl
    · exact .of_same rfl rfl

theorem progress_produce {r : Except IoError (Option α)} (hs : s.produce = some (r, s')) :
    Progress s s' := by
  rcases (produce_cases hs).2 with ⟨i, request, queue, -, -, rfl⟩ | ⟨-, -, rfl⟩ | ⟨e, -, rfl⟩ <;>
    exact .of_same rfl rfl

end ClientRpc

/-! ## The server -/

section Serves

variable {S Req Resp E : Type} [AssociateHandleForMessage Req] [AssociateHandleForMessage Resp]

/-- The first request accepted that has not been processed. -/
def Link.next (k : RpcLink Unit S Req Resp) : Option (CallId × Item Req) :=
  k.client.driver.handler.accepted[k.server.driver.handler.processed.length]?

inductive Serves (process : E → S → Item Req → Except String (Item Resp) × S)
    (outcome : E → Prop) (k k' : RpcLink Unit S Req Resp) : Prop
  | nothing (hserver : k'.server.driver.handler.server = k.server.driver.handler.server)
      (hprocessed : k'.server.driver.handler.processed = k.server.driver.handler.processed) :
      Serves process outcome k k'
  | served (e : E) (i : CallId) (m : Item Req) (r : Item Resp) (he : outcome e)
      (hnext : k.next = some (i, m))
      (hprocess : process e k.server.driver.handler.server m =
        (.ok r, k'.server.driver.handler.server))
      (hprocessed : k'.server.driver.handler.processed =
        k.server.driver.handler.processed ++ [(m, r)])
      (hclient : k'.client = k.client) :
      Serves process outcome k k'
  | panicked (e : E) (m : Item Req) (msg : String)
      (hprocess : process e k.server.driver.handler.server m =
        (.error msg, k'.server.driver.handler.server))
      (hprocessed : k'.server.driver.handler.processed = k.server.driver.handler.processed) :
      Serves process outcome k k'

/-- What an action can ask of a handler, with the outcome that it has. -/
def HandlerOps.during {In Out H : Type} [AssociateHandleForMessage In]
    [AssociateHandleForMessage Out] (ops : HandlerOps In Out H E) (a : ConnAction E) :
    HandlerOps In Out H E :=
  { ops with
    consume := fun _ => match a with
      | .processItem e => ops.consume e
      | _ => fun _ _ => none
    other := fun _ => match a with
      | .other e => ops.other e
      | _ => fun _ => none }

theorem step_during {P In Out H : Type} [Bincode In] [AssociateHandleForMessage In] [Bincode Out]
    [AssociateHandleForMessage Out] (pipe : PipeOps P) (ops : HandlerOps In Out H E)
    (c : Connection P In Out H) (w : List Tok) (a : ConnAction E) :
    c.step pipe (ops.during a) w a = c.step pipe ops w a := by
  unfold Connection.step
  cases c.phase <;> cases a <;> rfl

variable [Bincode Req] [Bincode Resp]
  {process : E → S → Item Req → Except String (Item Resp) × S}
  {k k' : RpcLink Unit S Req Resp} {a : LinkAction (RpcAction (Item Req)) E}

theorem rpcStep_call {i : CallId} {m : Item Req}
    (h : rpcStep process k (.client (.other (.call i m))) = some k') :
    k.client.driver.handler.calls i = none ∧
      k'.client.driver.handler = k.client.driver.handler.setCall i ⟨m, .pushing, none, true⟩ ∧
      k'.server = k.server := by
  obtain ⟨⟨c, toks, w⟩, hstep, rfl⟩ := Option.map_eq_some_iff.mp h
  rw [Connection.step_other] at hstep
  obtain ⟨handler, hother, heq⟩ := Option.map_eq_some_iff.mp hstep
  cases heq
  simp only [clientOps, ClientRpc.other] at hother
  split at hother
  · rename_i hcall
    split at hother <;> cases hother
    exact ⟨hcall, rfl, rfl⟩
  · cases hother

theorem rpcStep_progress (hcall : ∀ i m, a ≠ .client (.other (.call i m)))
    (h : rpcStep process k a = some k') :
    k.client.driver.handler.Progress k'.client.driver.handler := by
  cases a with
  | server a =>
      obtain ⟨⟨s, toks, w⟩, hstep, rfl⟩ := Option.map_eq_some_iff.mp h
      exact .of_same rfl rfl
  | client a =>
      obtain ⟨⟨c, toks, w⟩, hstep, rfl⟩ := Option.map_eq_some_iff.mp h
      have hconsume : ∀ {e m r handler}, (clientOps.during a).consume e k.client.driver.handler m =
          some (r, handler) → k.client.driver.handler.Progress handler := by
        intro e m r handler hs
        cases a with
        | processItem e => exact ClientRpc.progress_consume hs
        | _ => cases hs
      have hother : ∀ {e handler}, (clientOps.during a).other e k.client.driver.handler =
          some handler → k.client.driver.handler.Progress handler := by
        intro e handler hs
        cases a with
        | other e => exact ClientRpc.progress_other (fun i m heq => hcall i m (by rw [heq])) hs
        | _ => cases hs
      rw [← step_during] at hstep
      cases step_handled hstep with
      | nothing hhandler => exact .of_same (by rw [hhandler]) (by rw [hhandler])
      | dropped hhandler => exact hhandler ▸ .of_same rfl rfl
      | other e handler hops hhandler => exact hhandler ▸ hother hops
      | consumed e m handler hops hhandler => exact hhandler ▸ hconsume hops
      | rejected e m err handler hops hhandler | panicked e m msg handler hops hhandler =>
          exact hhandler ▸ (hconsume hops).then_drop
      | produced e m handler hops hhandler | drained e handler hops hhandler =>
          exact hhandler ▸ ClientRpc.progress_produce hops
      | lost e m handler hops hhandler | refused e err handler hops hhandler =>
          exact hhandler ▸ (ClientRpc.progress_produce hops).then_drop

omit [Bincode Req] [Bincode Resp] in
theorem serverOps_consume {h h' : ServerHandler S Req Resp} {e : E} {m : Item Req}
    {r : Except String (Except IoError Unit)}
    (hs : (serverOps process).consume e h m = some (r, h')) :
    (∃ resp, process e h.server m = (.ok resp, h'.server) ∧ r = .ok (.ok ()) ∧
      h'.processed = h.processed ++ [(m, resp)]) ∨
    (∃ msg, process e h.server m = (.error msg, h'.server) ∧ r = .error msg ∧
      h'.processed = h.processed) := by
  simp only [serverOps] at hs
  split at hs
  · cases hs
  · rename_i msg server _ hprocess
    cases hs
    exact Or.inr ⟨msg, hprocess, rfl, rfl⟩
  · rename_i resp server _ hprocess
    cases hs
    exact Or.inl ⟨resp, hprocess, rfl, rfl⟩

omit [Bincode Req] [Bincode Resp] in
theorem serverOps_produce (process : E → S → Item Req → Except String (Item Resp) × S)
    {h h' : ServerHandler S Req Resp} {e : E}
    {r : Except IoError (Option (Item Resp))}
    (hs : (serverOps process).produce e h = some (r, h')) :
    h'.server = h.server ∧ h'.processed = h.processed := by
  simp only [serverOps] at hs
  split at hs <;> cases hs <;> exact ⟨rfl, rfl⟩

variable [LawfulBincode Req] [LawfulBincode Resp]

/-- The server processes the next request, or none. -/
theorem rpcStep_serves (hk : RpcInv k) (h : rpcStep process k a = some k') :
    Serves process (fun e => a = .server (.processItem e)) k k' := by
  have horder := (rpcInv_step hk h).agreement.order
  cases a with
  | client a =>
      obtain ⟨⟨c, toks, w⟩, hstep, rfl⟩ := Option.map_eq_some_iff.mp h
      exact .nothing rfl rfl
  | server a =>
      obtain ⟨⟨s, toks, w⟩, hstep, rfl⟩ := Option.map_eq_some_iff.mp h
      have hsame : ∀ {handler : ServerHandler S Req Resp} {outcome : E → Prop},
          s.driver.handler = handler → handler.server = k.server.driver.handler.server →
          handler.processed = k.server.driver.handler.processed →
          Serves process outcome k { k with server := s, down := k.down ++ toks, up := w } := by
        rintro handler outcome rfl hserver hprocessed
        exact .nothing hserver hprocessed
      rw [← step_during] at hstep
      cases step_handled hstep with
      | nothing hhandler => exact hsame hhandler rfl rfl
      | dropped hhandler => exact hsame hhandler rfl rfl
      | other e handler hops =>
          cases a with
          | other e => cases hops
          | _ => cases hops
      | consumed e m handler hops hhandler =>
          cases a with
          | processItem e =>
              rcases serverOps_consume hops with ⟨resp, hprocess, -, hprocessed⟩ | ⟨msg, -, hr, -⟩
              · rw [← hhandler] at hprocess hprocessed
                have hnext := getElem?_of_prefix horder
                  (n := k.server.driver.handler.processed.length) (x := m) (by simp [hprocessed])
                rw [List.getElem?_map] at hnext
                obtain ⟨⟨i, m'⟩, hi, rfl⟩ := Option.map_eq_some_iff.mp hnext
                exact .served e i m' resp rfl hi hprocess hprocessed rfl
              · cases hr
          | _ => cases hops
      | rejected e m err handler hops =>
          cases a with
          | processItem e =>
              rcases serverOps_consume hops with ⟨resp, -, hr, -⟩ | ⟨msg, -, hr, -⟩ <;> cases hr
          | _ => cases hops
      | panicked e m msg handler hops hhandler =>
          cases a with
          | processItem e =>
              rcases serverOps_consume hops with ⟨resp, -, hr, -⟩ | ⟨msg', hprocess, -, hprocessed⟩
              · cases hr
              · have hserver : s.driver.handler.server = handler.server := by rw [hhandler]; rfl
                refine .panicked e m msg' (hserver ▸ hprocess) ?_
                exact (by rw [hhandler]; exact hprocessed)
          | _ => cases hops
      | produced e m handler hops hhandler | drained e handler hops hhandler
      | lost e m handler hops hhandler | refused e err handler hops hhandler =>
          have hproduce := serverOps_produce process (e := e) hops
          exact hsame hhandler hproduce.1 hproduce.2

omit [LawfulBincode Req] [LawfulBincode Resp] in
theorem RpcInv.setServer (hk : RpcInv k) (server : S) :
    RpcInv { k with server := { k.server with driver := { k.server.driver with
      handler := { k.server.driver.handler with server } } } } := by
  obtain ⟨up, hup⟩ := hk.link.up
  obtain ⟨down, hdown⟩ := hk.link.down
  exact ⟨⟨⟨up, hup.lane, hup.transferred, hup.pushed⟩,
      ⟨down, hdown.lane, hdown.transferred, hdown.pushed⟩, hk.link.clientClean,
      hk.link.serverClean, hk.link.clientPanic, hk.link.serverPanic⟩,
    hk.client, ⟨hk.server.processed, hk.server.produced, hk.server.awaiting⟩, hk.clientLive,
    hk.serverLive⟩

end Serves

end Audioipc

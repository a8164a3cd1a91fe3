import Audioipc.Link
import Audioipc.Release

/-!
# RPC agreement

A client connection and a server connection joined by two reliable streams,
any number of callers, any server. Requests carry no ids: which call a
response belongs to is decided by its position alone.

`ClientOrder` and `ServerOrder` relate each handler's queues to what its
connection has sent and received; they are invariants of the handlers, and
`Link.Inv` says that what one side received is a prefix of what the other
sent. Put together, the n-th request accepted, the n-th request processed
and the n-th writer completed are those of one call (`rpc_agreement`).
-/

namespace Audioipc

/-! ## The order of a client's queues -/

section ClientOrder

variable {α β : Type}

namespace ClientRpc

/-- The queues of a client whose connection has sent and received these
messages. -/
structure ClientOrder (s : ClientRpc α β) (sent : List α) (received : List β) : Prop where
  accepted : ∀ i r, (i, r) ∈ s.accepted → ∃ c, s.calls i = some c ∧ c.request = r ∧
    c.refused = false
  once : (s.accepted.map Prod.fst).Nodup
  queued : s.handler = .live ∨ s.handler = .dropping → s.accepted = s.popped ++ s.queue
  popped : s.popped <+: s.accepted
  awaiting : s.handler = .live → s.popped.map Prod.fst = s.completed.map Prod.fst ++ s.inFlight
  answered : s.completed.map Prod.fst <+: s.popped.map Prod.fst
  produced : sent <+: s.popped.map Prod.snd
  producedAll : s.handler = .live → sent = s.popped.map Prod.snd
  consumed : s.completed.map Prod.snd <+: received
  consumedAll : s.handler = .live → s.completed.map Prod.snd = received

theorem clientOrder_new : (new : ClientRpc α β).ClientOrder [] [] := by
  refine ⟨?_, List.nodup_nil, fun _ => rfl, List.prefix_refl _, fun _ => rfl,
    List.prefix_refl _, List.prefix_refl _, fun _ => rfl, List.prefix_refl _, fun _ => rfl⟩
  simp [new]

variable {s s' : ClientRpc α β} {sent : List α} {received : List β}

/-- A step that touches no queue, and does not forget what was accepted. -/
theorem ClientOrder.of_calls (h : s.ClientOrder sent received)
    (hcalls : ∀ i c, s.calls i = some c → c.refused = false →
      ∃ c', s'.calls i = some c' ∧ c'.request = c.request ∧ c'.refused = false)
    (haccepted : s'.accepted = s.accepted) (hpopped : s'.popped = s.popped)
    (hcompleted : s'.completed = s.completed)
    (hlive : s'.handler = .live → s.handler = .live ∧ s'.inFlight = s.inFlight)
    (hqueue : s'.handler = .live ∨ s'.handler = .dropping →
      (s.handler = .live ∨ s.handler = .dropping) ∧ s'.queue = s.queue) :
    s'.ClientOrder sent received := by
  refine ⟨fun i r hir => ?_, haccepted ▸ h.once, fun hh => ?_, ?_, fun hh => ?_, ?_, ?_,
    fun hh => ?_, ?_, fun hh => ?_⟩
  · rw [haccepted] at hir
    obtain ⟨c, hc, hr, hrefused⟩ := h.accepted i r hir
    obtain ⟨c', hc', hr', hrefused'⟩ := hcalls i c hc hrefused
    exact ⟨c', hc', hr'.trans hr, hrefused'⟩
  · rw [haccepted, hpopped, (hqueue hh).2]; exact h.queued (hqueue hh).1
  · rw [haccepted, hpopped]; exact h.popped
  · rw [hpopped, hcompleted, (hlive hh).2]; exact h.awaiting (hlive hh).1
  · rw [hpopped, hcompleted]; exact h.answered
  · rw [hpopped]; exact h.produced
  · rw [hpopped]; exact h.producedAll (hlive hh).1
  · rw [hcompleted]; exact h.consumed
  · rw [hcompleted]; exact h.consumedAll (hlive hh).1

theorem update_keeps {calls : CallId → Option (Call α β)} {i : CallId} {c₁ : Option (Call α β)}
    (hi : ∀ c, calls i = some c → c.refused = false →
      ∃ c', c₁ = some c' ∧ c'.request = c.request ∧ c'.refused = false) :
    ∀ j c, calls j = some c → c.refused = false →
      ∃ c', Function.update calls i c₁ j = some c' ∧ c'.request = c.request ∧
        c'.refused = false := by
  intro j c hj hc
  by_cases hij : j = i
  · subst hij; rw [Function.update_self]; exact hi c hj hc
  · rw [Function.update_of_ne hij]; exact ⟨c, hj, rfl, hc⟩

theorem dropCompletionWriter_keeps (s : ClientRpc α β) (i : CallId) :
    ∀ j c, s.calls j = some c → c.refused = false →
      ∃ c', (s.dropCompletionWriter i).calls j = some c' ∧ c'.request = c.request ∧
        c'.refused = false :=
  update_keeps fun c hc hrefused => ⟨{ c with writer := false }, by rw [hc]; rfl, rfl, hrefused⟩

theorem ClientOrder.other (h : s.ClientOrder sent received) (ho : s.Ownership)
    {a : RpcAction α} (hs : s.other a = some s') : s'.ClientOrder sent received := by
  have hsame : ∀ i c, s.calls i = some c → c.refused = false →
      ∃ c', s.calls i = some c' ∧ c'.request = c.request ∧ c'.refused = false :=
    fun i c hc hr => ⟨c, hc, rfl, hr⟩
  -- a call that the queue has not taken yet has nothing to keep
  have hopen : ∀ {i} {c₀ : Call α β} {c' : Option (Call α β)}, s.calls i = some c₀ →
      c₀.refused = true → ∀ c, s.calls i = some c → c.refused = false →
      ∃ c₁, c' = some c₁ ∧ c₁.request = c.request ∧ c₁.refused = false := by
    intro i c₀ c' hc₀ hrefused c hc hr
    obtain rfl := Option.some.inj (hc₀.symm.trans hc)
    rw [hrefused] at hr
    cases hr
  cases other_cases hs with
  | cloneProxy | dropProxy =>
      exact h.of_calls hsame rfl rfl rfl (fun h => ⟨h, rfl⟩) (fun h => ⟨h, rfl⟩)
  | call hnone =>
      refine h.of_calls (update_keeps fun c hc => ?_) rfl rfl rfl (fun h => ⟨h, rfl⟩)
        (fun h => ⟨h, rfl⟩)
      rw [hnone] at hc
      cases hc
  | upgraded hc | gone hc | full hc | failed hc =>
      exact h.of_calls (update_keeps (hopen hc rfl)) rfl rfl rfl (fun h => ⟨h, rfl⟩)
        (fun h => ⟨h, rfl⟩)
  | @accepted i request item writer hc =>
      -- only here does the queue grow, by a request it has not had yet
      have hnew : i ∉ s.accepted.map Prod.fst := by
        intro hmem
        obtain ⟨⟨j, r⟩, hjr, rfl⟩ := List.mem_map.mp hmem
        obtain ⟨c, hc', -, hr⟩ := h.accepted j r hjr
        rw [hc] at hc'
        cases hc'
        cases hr
      obtain ⟨accepted, once, queued, popped, awaiting, answered, produced, producedAll,
        consumed, consumedAll⟩ := h
      refine ⟨fun j r hjr => ?_, ?_, fun hh => ?_, ?_, awaiting, answered, produced,
        producedAll, consumed, consumedAll⟩
      · rcases List.mem_append.mp hjr with hold | hnew'
        · obtain ⟨c, hc', hr, hrefused⟩ := accepted j r hold
          obtain ⟨c', hc'', hr', hrefused'⟩ := update_keeps (hopen hc rfl) j c hc' hrefused
          exact ⟨c', hc'', hr'.trans hr, hrefused'⟩
        · cases List.mem_singleton.mp hnew'
          exact ⟨_, Function.update_self .., rfl, rfl⟩
      · rw [List.map_append, List.nodup_append]
        refine ⟨once, by simp, fun a ha b hb => ?_⟩
        rintro rfl
        rw [List.mem_singleton.mp hb] at ha
        exact hnew ha
      · simp only [setCall, queued hh, List.append_assoc]
      · exact popped.trans (List.prefix_append ..)
  | @released i request ok item writer hc =>
      refine h.of_calls (update_keeps fun c hc' hr => ?_) rfl rfl rfl (fun h => ⟨h, rfl⟩)
        (fun h => ⟨h, rfl⟩)
      rw [hc] at hc'
      cases hc'
      cases ok with
      | false => cases hr
      | true => exact ⟨_, rfl, rfl, by split <;> rfl⟩
  | @drained i request ok item writer hc =>
      refine h.of_calls (update_keeps fun c hc' hr => ?_) rfl rfl rfl (fun h => ⟨h, rfl⟩)
        (fun h => ⟨h, rfl⟩)
      rw [hc] at hc'
      cases hc'
      cases ok with
      | false => cases hr
      | true => exact ⟨_, rfl, rfl, rfl⟩
  | @drainedOne i j _ _ _ _ _ queue hc =>
      -- the handler's reference is gone by now
      have hdead := ho.drainer i (callIs_of hc)
      refine h.of_calls (dropCompletionWriter_keeps s j) rfl rfl rfl (fun h => ⟨h, rfl⟩)
        (fun hh => ?_)
      rcases hh with hh | hh <;> simp [alive, show s.handler = _ from hh] at hdead
  | finished hc =>
      refine h.of_calls (update_keeps fun c hc' hr => ?_) rfl rfl rfl (fun h => ⟨h, rfl⟩)
        (fun h => ⟨h, rfl⟩)
      rw [hc] at hc'
      cases hc'
      exact ⟨_, rfl, rfl, rfl⟩
  | @droppedWriter i _ hhandler =>
      refine h.of_calls (dropCompletionWriter_keeps s i) rfl rfl rfl (fun h => ?_)
        (fun h => ⟨h, rfl⟩)
      rw [show s.handler = _ from h] at hhandler
      cases hhandler
  | droppedQueue =>
      refine h.of_calls hsame rfl rfl rfl (fun h => ?_) (fun h => ?_) <;> dsimp only at h
      · split at h <;> cases h
      · split at h <;> rcases h with h | h <;> cases h
  | emptied =>
      refine h.of_calls hsame rfl rfl rfl (fun h => ?_) (fun h => ?_)
      · cases h
      · rcases h with h | h <;> cases h
  | @drainedQueue i _ _ hhandler =>
      refine h.of_calls (dropCompletionWriter_keeps s i) rfl rfl rfl (fun h => ?_) (fun h => ?_)
      · rw [show s.handler = _ from h] at hhandler
        cases hhandler
      · rcases h with h | h <;> rw [show s.handler = _ from h] at hhandler <;> cases hhandler

theorem ClientOrder.drop (h : s.ClientOrder sent received) :
    s.drop.ClientOrder sent received := by
  refine h.of_calls (fun i c hc hr => ⟨c, hc, rfl, hr⟩) rfl rfl rfl (fun hh => ?_)
    (fun hh => ?_) <;> simp only [ClientRpc.drop] at hh
  · split at hh
    · cases hh
    · contradiction
  · split at hh
    · exact ⟨Or.inl ‹_›, rfl⟩
    · exact ⟨hh, rfl⟩

/-- The first writer is completed with the next response. -/
theorem ClientOrder.consume (h : s.ClientOrder sent received) {response : β}
    (hs : s.consume response = some (.ok (.ok ()), s')) :
    s'.ClientOrder sent (received ++ [response]) := by
  obtain ⟨hlive, ⟨e, -, hr, -⟩ | ⟨i, rest, hf, ⟨request, phase, item, hc, -, rfl⟩ |
    ⟨-, msg, hr, -⟩⟩⟩ := consume_cases hs
  · cases hr
  · have hawaiting := h.awaiting hlive
    refine ⟨fun j r hjr => ?_, h.once, h.queued, h.popped, fun _ => ?_, ?_, h.produced,
      h.producedAll, ?_, fun _ => ?_⟩
    · obtain ⟨c, hc', hr, hrefused⟩ := h.accepted j r hjr
      have hkeeps : ∀ c, s.calls i = some c → c.refused = false → ∃ c' : Call α β,
          some (⟨request, phase, some response, false⟩ : Call α β) = some c' ∧
            c'.request = c.request ∧ c'.refused = false := by
        intro c hc' hr
        rw [hc] at hc'
        cases hc'
        exact ⟨_, rfl, rfl, hr⟩
      obtain ⟨c', hc'', hr', hrefused'⟩ := update_keeps hkeeps j c hc' hrefused
      exact ⟨c', hc'', hr'.trans hr, hrefused'⟩
    · simp only [setCall, hawaiting, hf, List.map_append, List.map_cons, List.map_nil,
        List.append_assoc, List.cons_append, List.nil_append]
    · simp only [setCall, hawaiting, hf, List.map_append, List.map_cons, List.map_nil]
      exact ⟨rest, by rw [List.append_assoc]; rfl⟩
    · rw [List.map_append, h.consumedAll hlive]
      exact List.prefix_refl _
    · rw [List.map_append, h.consumedAll hlive]
      rfl
  · cases hr

theorem ClientOrder.reject (h : s.ClientOrder sent received) {response : β} {e : IoError}
    (hs : s.consume response = some (.ok (.error e), s')) :
    s'.drop.ClientOrder sent (received ++ [response]) := by
  obtain ⟨hlive, ⟨e, -, -, rfl⟩ | ⟨i, rest, -, ⟨_, _, _, -, hr, -⟩ |
    ⟨-, msg, hr, -⟩⟩⟩ := consume_cases hs
  · have hdrop := h.drop
    exact ⟨hdrop.accepted, hdrop.once, hdrop.queued, hdrop.popped, hdrop.awaiting,
      hdrop.answered, hdrop.produced, hdrop.producedAll,
      hdrop.consumed.trans (List.prefix_append ..), fun hh => absurd hh (by
        simp only [ClientRpc.drop]; split <;> simp_all)⟩
  · cases hr
  · cases hr

theorem ClientOrder.produce (h : s.ClientOrder sent received) {request : α}
    (hs : s.produce = some (.ok (some request), s')) :
    s'.ClientOrder (sent ++ [request]) received := by
  obtain ⟨hlive, ⟨i, m, queue, hr, hq, rfl⟩ | ⟨hr, -⟩ | ⟨e, hr, -⟩⟩ := produce_cases hs
  · cases hr
    have hqueued := h.queued (Or.inl hlive)
    refine ⟨h.accepted, h.once, fun _ => ?_, ?_, fun _ => ?_, ?_, ?_, fun _ => ?_, h.consumed,
      h.consumedAll⟩
    · simp only [hqueued, hq, List.append_assoc, List.cons_append, List.nil_append]
    · simp only [hqueued, hq]
      exact ⟨queue, by simp⟩
    · simp only [List.map_append, h.awaiting hlive, List.append_assoc, List.map_cons,
        List.map_nil]
    · rw [List.map_append]
      exact h.answered.trans (List.prefix_append ..)
    · rw [List.map_append, h.producedAll hlive]
      exact List.prefix_refl _
    · rw [List.map_append, h.producedAll hlive]
      rfl
  · cases hr
  · cases hr

/-- A request that was produced and then lost, because the connection is
removed. -/
theorem ClientOrder.lose (h : s.ClientOrder sent received) {request : α}
    (hs : s.produce = some (.ok (some request), s')) : s'.drop.ClientOrder sent received := by
  obtain ⟨hlive, -⟩ := produce_cases hs
  have hdrop := (h.produce hs).drop
  have hlive' : s'.drop.handler ≠ .live := by
    simp only [ClientRpc.drop]; split <;> simp_all
  exact ⟨hdrop.accepted, hdrop.once, hdrop.queued, hdrop.popped, hdrop.awaiting,
    hdrop.answered, (List.prefix_append ..).trans hdrop.produced,
    fun hh => absurd hh hlive', hdrop.consumed, hdrop.consumedAll⟩

theorem ClientOrder.produce_none (h : s.ClientOrder sent received)
    {r : Except IoError (Option α)} (hr : ∀ m, r ≠ .ok (some m))
    (hs : s.produce = some (r, s')) : s'.ClientOrder sent received := by
  obtain ⟨-, ⟨i, m, queue, hr', -⟩ | ⟨-, -, rfl⟩ | ⟨e, -, rfl⟩⟩ := produce_cases hs
  · exact absurd hr' (hr m)
  · exact h
  · exact h

end ClientRpc

end ClientOrder

section Agreement

variable {P S E Req Resp : Type} [Bincode Req] [AssociateHandleForMessage Req]
  [Bincode Resp] [AssociateHandleForMessage Resp]

/-- All that a client connection keeps to. -/
structure ClientInv (s : ClientRpc (Item Req) (Item Resp)) (sent : List (Item Req))
    (received : List (Item Resp)) : Prop where
  ownership : s.Ownership
  results : s.Results
  order : s.ClientOrder sent received

omit [Bincode Req] [Bincode Resp] in
theorem clientInv : HandlerInv (clientOps : HandlerOps Resp Req _ _) ClientInv where
  drop h := ⟨h.ownership.drop, h.results.drop, h.order.drop⟩
  other h hs := ⟨h.ownership.other hs, h.results.other hs, h.order.other h.ownership hs⟩
  consume h hs := ⟨(h.ownership.consume hs).1, h.results.consume h.ownership hs,
    h.order.consume hs⟩
  reject h hs := ⟨(h.ownership.consume hs).1.drop, (h.results.consume h.ownership hs).drop,
    h.order.reject hs⟩
  panic h hs := nomatch (h.ownership.consume hs).2
  produce h hs := ⟨h.ownership.produce hs, h.results.produce hs, h.order.produce hs⟩
  lose h hs := ⟨(h.ownership.produce hs).drop, (h.results.produce hs).drop, h.order.lose hs⟩
  drain h hs := ⟨h.ownership.produce hs, h.results.produce hs,
    h.order.produce_none (fun _ h => by cases h) hs⟩
  refuse h hs := ⟨(h.ownership.produce hs).drop, (h.results.produce hs).drop,
    (h.order.produce_none (fun _ h => by cases h) hs).drop⟩

/-- The queue of a server whose connection has sent and received these
messages. -/
structure ServerOrder (h : ServerHandler S Req Resp) (sent : List (Item Resp))
    (received : List (Item Req)) : Prop where
  processed : h.processed.map Prod.fst = received
  produced : sent <+: h.processed.map Prod.snd
  awaiting : h.dropped = false → h.processed.map Prod.snd = sent ++ h.inFlight

variable {process : E → S → Item Req → Except String (Item Resp) × S}

omit [Bincode Req] [Bincode Resp] in
theorem serverOrder : HandlerInv (serverOps process) ServerOrder where
  drop h := ⟨h.processed, h.produced, nofun⟩
  other _ hs := nomatch hs
  consume := by
    intro e h h' m sent received ho hs
    simp only [serverOps] at hs
    split at hs <;> cases hs
    refine ⟨by simp [ho.processed], ?_, fun hd => by simp [ho.awaiting hd]⟩
    rw [List.map_append]
    exact ho.produced.trans (List.prefix_append ..)
  reject := by
    intro e h h' m err sent received ho hs
    simp only [serverOps] at hs
    split at hs <;> cases hs
  panic := by
    intro e h h' m msg sent received ho hs
    simp only [serverOps] at hs
    split at hs <;> cases hs
    exact ⟨ho.processed, ho.produced, nofun⟩
  produce := by
    intro e h h' m sent received ho hs
    simp only [serverOps] at hs
    split at hs <;> cases hs
    rename_i inFlight hd hf
    have hawaiting := ho.awaiting hd
    rw [hf] at hawaiting
    exact ⟨ho.processed, ⟨inFlight, by simp [hawaiting]⟩, fun _ => by simp [hawaiting]⟩
  lose := by
    intro e h h' m sent received ho hs
    simp only [serverOps] at hs
    split at hs <;> cases hs
    exact ⟨ho.processed, ho.produced, nofun⟩
  drain := by
    intro e h h' sent received ho hs
    simp only [serverOps] at hs
    split at hs <;> cases hs
    exact ho
  refuse := by
    intro e h h' err sent received ho hs
    simp only [serverOps] at hs
    split at hs <;> cases hs

omit [Bincode Req] [Bincode Resp] in
/-- What holds of each request and what the server makes of it. -/
theorem serverAnswers {R : Item Req → Item Resp → Prop}
    (hR : ∀ e s m resp s', process e s m = (.ok resp, s') → R m resp) :
    HandlerInv (serverOps process) fun h _ _ => ∀ p ∈ h.processed, R p.1 p.2 where
  drop h := h
  other _ hs := nomatch hs
  consume := by
    intro e h h' m _ _ hold hs
    simp only [serverOps] at hs
    split at hs <;> cases hs
    rename_i hserve
    intro p hp
    rcases List.mem_append.mp hp with hp | hp
    · exact hold p hp
    · obtain rfl := List.mem_singleton.mp hp
      exact hR _ _ _ _ _ hserve
  reject := by
    intro e h h' m err _ _ hold hs
    simp only [serverOps] at hs
    split at hs <;> cases hs
  panic := by
    intro e h h' m msg _ _ hold hs
    simp only [serverOps] at hs
    split at hs <;> cases hs
    exact hold
  produce := by
    intro e h h' m _ _ hold hs
    simp only [serverOps] at hs
    split at hs <;> cases hs
    exact hold
  lose := by
    intro e h h' m _ _ hold hs
    simp only [serverOps] at hs
    split at hs <;> cases hs
    exact hold
  drain := by
    intro e h h' _ _ hold hs
    simp only [serverOps] at hs
    split at hs <;> cases hs
    exact hold
  refuse := by
    intro e h h' err _ _ hold hs
    simp only [serverOps] at hs
    split at hs <;> cases hs

omit [Bincode Req] [Bincode Resp] in
theorem serverLive : HandlerLive (serverOps process)
    (fun h : ServerHandler S Req Resp => h.dropped = false) where
  other _ hs := nomatch hs
  consume := by
    intro e h h' m hlive hs
    simp only [serverOps] at hs
    split at hs <;> cases hs
    exact hlive
  produce := by
    intro e h h' m hlive hs
    simp only [serverOps] at hs
    split at hs <;> cases hs <;> exact hlive

/-! ## The two together -/

abbrev RpcLink (P S Req Resp : Type) [AssociateHandleForMessage Req]
    [AssociateHandleForMessage Resp] :=
  Link P Req Resp (ClientRpc (Item Req) (Item Resp)) (ServerHandler S Req Resp)

/-- What is known of every reachable state of a client and a server. -/
structure RpcInv (k : RpcLink Unit S Req Resp) : Prop where
  link : k.Inv fun _ => True
  client : ClientInv k.client.driver.handler k.client.log.sent k.client.log.received
  server : ServerOrder k.server.driver.handler k.server.log.sent k.server.log.received
  clientLive : k.client.phase ≠ .removed → k.client.driver.handler.handler = .live
  serverLive : k.server.phase ≠ .removed → k.server.driver.handler.dropped = false

/-- A client and a server on two reliable streams. -/
abbrev rpcStep (process : E → S → Item Req → Except String (Item Resp) × S)
    (k : RpcLink Unit S Req Resp) : LinkAction (RpcAction (Item Req)) E →
    Option (RpcLink Unit S Req Resp) :=
  Link.step bytePipe clientOps (serverOps process) k

def rpcStart (server : S) : RpcLink Unit S Req Resp := .new () .new (.new server)

omit [Bincode Req] [Bincode Resp] in
theorem rpcInv_start [Bincode Req] [Bincode Resp] (server : S) :
    RpcInv (rpcStart server : RpcLink Unit S Req Resp) where
  link := Link.inv_new trivial _ _
  client := ⟨ClientRpc.ownership_new, ClientRpc.results_new, ClientRpc.clientOrder_new⟩
  server := ⟨rfl, List.prefix_refl _, fun _ => rfl⟩
  clientLive _ := rfl
  serverLive _ := rfl

theorem rpcInv_step [LawfulBincode Req] [LawfulBincode Resp] {k k' : RpcLink Unit S Req Resp}
    {a : LinkAction (RpcAction (Item Req)) E} (hk : RpcInv k) (h : rpcStep process k a = some k') :
    RpcInv k' := by
  have hgood : Link.GoodSends (fun _ _ => True) k a := by
    cases a with
    | client a => cases a <;> trivial
    | server a => cases a <;> trivial
  have hlink := Link.step_inv bytePipe_lawful hk.link hgood h
  rcases Link.step_handled h with ⟨hhandled, hsame⟩ | ⟨hhandled, hsame⟩
  · exact ⟨hlink, clientInv.handled hk.client hhandled, hsame ▸ hk.server,
      clientLive.handled hk.clientLive hhandled, hsame ▸ hk.serverLive⟩
  · exact ⟨hlink, hsame ▸ hk.client, serverOrder.handled hk.server hhandled,
      hsame ▸ hk.clientLive, serverLive.handled hk.serverLive hhandled⟩

/-- What a client and a server agree on. A call that returns `Ok` returns what
the server made of its own request (`result`). Requests are processed in the
order in which they were accepted, each at most once (`order`, `once`), and the
n-th writer popped is completed with the n-th response (`position`). While both
connections are up everything accepted is somewhere, and the first writer is
there for the next response (`noLoss`, `noMismatch`). -/
structure Agreement (k : RpcLink Unit S Req Resp) : Prop where
  result : ∀ i call resp, k.client.driver.handler.calls i = some call →
    call.phase = .returned (some resp) →
    ∃ n : Nat, k.client.driver.handler.accepted[n]? = some (i, call.request) ∧
      k.server.driver.handler.processed[n]? = some (call.request, resp)
  order : k.server.driver.handler.processed.map Prod.fst <+:
    k.client.driver.handler.accepted.map Prod.snd
  once : (k.client.driver.handler.accepted.map Prod.fst).Nodup
  position : ∀ (n : Nat) i resp, k.client.driver.handler.completed[n]? = some (i, resp) →
    (k.client.driver.handler.popped[n]?).map Prod.fst = some i ∧
    (k.server.driver.handler.processed[n]?).map Prod.snd = some resp
  noLoss : k.client.phase ≠ .removed → k.server.phase ≠ .removed →
    ∃ requests responses, (laneOf k.client k.server k.up).InFlight requests ∧
      (laneOf k.server k.client k.down).InFlight responses ∧
      k.client.driver.handler.accepted.map Prod.snd =
        k.server.driver.handler.processed.map Prod.fst ++ requests ++
          k.client.driver.handler.queue.map Prod.snd ∧
      k.server.driver.handler.processed.map Prod.snd =
        k.client.driver.handler.completed.map Prod.snd ++ responses ++
          k.server.driver.handler.inFlight ∧
      k.client.driver.handler.popped.map Prod.fst =
        k.client.driver.handler.completed.map Prod.fst ++ k.client.driver.handler.inFlight
  noMismatch : k.client.phase ≠ .removed → k.server.phase ≠ .removed →
    ∀ m responses, (laneOf k.server k.client k.down).InFlight (m :: responses) →
      k.client.driver.handler.inFlight ≠ []

/-- Two prefixes of one list agree where both are defined. -/
theorem getElem?_of_prefix {α : Type} {xs ys : List α} (h : xs <+: ys) {n : Nat} {x : α}
    (hx : xs[n]? = some x) : ys[n]? = some x := by
  obtain ⟨rest, rfl⟩ := h
  obtain ⟨hlt, rfl⟩ := List.getElem?_eq_some_iff.mp hx
  rw [List.getElem?_append_left hlt, List.getElem?_eq_getElem hlt]

theorem RpcInv.agreement {k : RpcLink Unit S Req Resp} (hk : RpcInv k) : Agreement k := by
  obtain ⟨hup, hdown⟩ := hk.link.received_prefix
  have horder : k.server.driver.handler.processed.map Prod.fst <+:
      k.client.driver.handler.popped.map Prod.snd := by
    rw [hk.server.processed]
    exact hup.trans hk.client.order.produced
  have hresp : k.client.driver.handler.completed.map Prod.snd <+:
      k.server.driver.handler.processed.map Prod.snd :=
    (hk.client.order.consumed.trans hdown).trans hk.server.produced
  have hposition : ∀ (n : Nat) i resp, k.client.driver.handler.completed[n]? = some (i, resp) →
      (k.client.driver.handler.popped[n]?).map Prod.fst = some i ∧
      (k.server.driver.handler.processed[n]?).map Prod.snd = some resp := by
    intro n i resp hn
    have h₁ : (k.client.driver.handler.completed.map Prod.fst)[n]? = some i := by simp [hn]
    have h₂ : (k.client.driver.handler.completed.map Prod.snd)[n]? = some resp := by simp [hn]
    exact ⟨by simpa using getElem?_of_prefix hk.client.order.answered h₁,
      by simpa using getElem?_of_prefix hresp h₂⟩
  refine ⟨fun i call resp hcall hphase => ?_,
    horder.trans (hk.client.order.popped.map Prod.snd), hk.client.order.once, hposition,
    fun hc hs => ?_, fun hc hs m responses hlane hnil => ?_⟩
  · have hmem : (i, resp) ∈ k.client.driver.handler.completed :=
      (hk.client.results.outcome i resp).mpr ⟨call, hcall, by simp [Call.outcome, hphase]⟩
    obtain ⟨n, hn⟩ := List.mem_iff_getElem?.mp hmem
    obtain ⟨hpopped, hprocessed⟩ := hposition n i resp hn
    obtain ⟨⟨i', request⟩, hn₁, rfl⟩ := Option.map_eq_some_iff.mp hpopped
    obtain ⟨⟨request', resp'⟩, hn₂, rfl⟩ := Option.map_eq_some_iff.mp hprocessed
    have haccepted := getElem?_of_prefix hk.client.order.popped hn₁
    -- the n-th request processed is the n-th one popped
    have hsame : request' = request := by
      have h₁ : (k.server.driver.handler.processed.map Prod.fst)[n]? = some request' := by
        simp [hn₂]
      have h₂ := getElem?_of_prefix horder h₁
      simpa [hn₁] using h₂.symm
    obtain ⟨call', hcall', hrequest, -⟩ :=
      hk.client.order.accepted _ _ (List.mem_of_getElem? haccepted)
    obtain rfl : call = call' := Option.some.inj (hcall.symm.trans hcall')
    subst hsame
    exact ⟨n, hrequest ▸ haccepted, hrequest ▸ hn₂⟩
  · obtain ⟨requests, hreq⟩ := hk.link.up
    obtain ⟨responses, hres⟩ := hk.link.down
    have hclient := hk.clientLive hc
    have hserver := hk.serverLive hs
    refine ⟨requests, responses, hreq.lane, hres.lane, ?_, ?_, hk.client.order.awaiting hclient⟩
    · rw [hk.client.order.queued (Or.inl hclient), List.map_append,
        ← hk.client.order.producedAll hclient, hk.server.processed]
      exact congrArg (· ++ _) hreq.lane.messages
    · rw [hk.server.awaiting hserver, hk.client.order.consumedAll hclient]
      exact congrArg (· ++ _) hres.lane.messages
  · have hclient := hk.clientLive hc
    have hsent := congrArg List.length hlane.messages
    have hreceived := congrArg List.length (hk.client.order.consumedAll hclient)
    have hawaiting := congrArg List.length (hk.client.order.awaiting hclient)
    have hlen := horder.length_le
    have hproduced := hk.server.produced.length_le
    simp only [laneOf, hnil, List.length_append, List.length_map, List.length_cons,
      List.length_nil] at hsent hreceived hawaiting hlen hproduced
    omega

/-- In every state a client and a server reach, on two reliable streams,
with any server and any interleaving of callers and sends and receives of
any size, they agree. -/
theorem rpc_agreement [LawfulBincode Req] [LawfulBincode Resp]
    (process : E → S → Item Req → Except String (Item Resp) × S) (server : S)
    {as : List (LinkAction (RpcAction (Item Req)) E)} {k : RpcLink Unit S Req Resp}
    (hrun : Lts.runs (rpcStep process) (rpcStart server) as = some k) : Agreement k := by
  have hstep : ∀ (k : RpcLink Unit S Req Resp) a k', RpcInv k →
      rpcStep process k a = some k' → RpcInv k' := fun _ _ _ hk h => rpcInv_step hk h
  have hk : RpcInv k := Lts.runs_invariant hstep (rpcInv_start server) hrun
  exact hk.agreement

/-- Two threads call a server that echoes. The second call begins while the
first is in the middle of its `push`, and overtakes it; the requests are sent
and received in fragments. -/
def overlappingCalls : List (LinkAction (RpcAction (Item Bool)) Unit) :=
  [.client (.other (.call 0 .bare)), .client (.other (.upgrade 0)),
   .client (.other (.call 1 ⟨true, some 7, rfl⟩)), .client (.other (.upgrade 1)),
   .client (.other (.push 1)), .client (.other (.push 0)), .client (.other (.release 0)),
   .client (.other (.release 1)), .client .wake, .client (.flushItem .cloneProxy),
   .client (.flushItem .cloneProxy), .client (.flushItem .cloneProxy),
   .client (.sendMsg (.ok 5)), .client (.sendMsg (.ok 21)), .client (.finish true),
   .server (.event true), .server (.recvMsg (.ok 12)), .server (.processItem ()),
   .server (.recvMsg (.ok 14)), .server (.processItem ()), .server (.processItem ()),
   .server (.processItem ()), .server (.recvMsg (.error .wouldBlock)),
   .server (.flushItem ()), .server (.flushItem ()), .server (.flushItem ()),
   .server (.sendMsg (.ok 20)), .client (.event true), .client (.recvMsg (.ok 20)),
   .client (.processItem .cloneProxy), .client (.other (.finish 1)),
   .client (.processItem .cloneProxy), .server (.sendMsg (.ok 6)), .server (.finish true),
   .client (.recvMsg (.ok 6)), .client (.processItem .cloneProxy), .client (.other (.finish 0))]

theorem rpc_agreement_run : ∃ k : RpcLink Unit Unit Bool Bool,
    (k.client.driver.handler.calls 0).bind (fun c => c.outcome.map Item.body) = some false ∧
      (k.client.driver.handler.calls 1).bind (fun c => c.outcome.map Item.body) = some true ∧
      k.server.driver.handler.processed.map (fun p => p.1.body) = [true, false] ∧
      Agreement k := by
  let process : Unit → Unit → Item Bool → Except String (Item Bool) × Unit :=
    fun _ _ m => (.ok m, ())
  have hrun : (Lts.runs (rpcStep process) (rpcStart ()) overlappingCalls).map
      (fun k : RpcLink Unit Unit Bool Bool =>
        ((k.client.driver.handler.calls 0).bind (fun c => c.outcome.map Item.body),
          (k.client.driver.handler.calls 1).bind (fun c => c.outcome.map Item.body),
          k.server.driver.handler.processed.map fun p => p.1.body))
      = some (some false, some true, [true, false]) := by decide +kernel
  obtain ⟨k, hk, heq⟩ := Option.map_eq_some_iff.mp hrun
  simp only [Prod.mk.injEq] at heq
  exact ⟨k, heq.1, heq.2.1, heq.2.2, rpc_agreement process () hk⟩

end Agreement

end Audioipc

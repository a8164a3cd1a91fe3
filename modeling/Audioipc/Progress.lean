import Audioipc.Attention

/-!
# A loop never hangs

While any call on any connection of a loop has not returned, something goes
on of itself (`Attentive.no_deadlock`): a caller takes its next step, the loop
thread or a server with something to handle does, the poll returns, or the
kernel has to make room.

The proof is by what a system at rest would look like. The loop is blocked,
or it has stopped and all handlers are dropped. If it is blocked, no wake is
owed and none is in its queue, so by `Woken` no live handler has requests.
Nothing is left on the streams of a connection or in its outbound buffers
(`Attends`), no message in its inbound buffers, no response with its server;
but then every request accepted has been answered (`Agreement`), and no writer
is left that a call could wait for (`Ownership`).
-/

namespace Audioipc

variable {S E Req Resp : Type} [Bincode Req] [AssociateHandleForMessage Req]
  [Bincode Resp] [AssociateHandleForMessage Resp]

theorem ClientRpc.goesOn_of_inPush {α β : Type} {s : ClientRpc α β} {i : CallId}
    (h : callIs Call.inPush s.calls i = true) :
    ∃ a, ClientRpc.goesOn a = true ∧ (∀ j, a ≠ .finish j) ∧ (s.other a).isSome = true := by
  obtain ⟨⟨request, phase, item, writer⟩, hc, hpush⟩ := (Option.any_eq_true _ _).mp h
  cases phase with
  | pushing =>
      refine ⟨.upgrade i, rfl, (fun _ hfinish => by cases hfinish), ?_⟩
      simp only [ClientRpc.other, hc]
      split <;> rfl
  | upgraded =>
      refine ⟨.push i, rfl, (fun _ hfinish => by cases hfinish), ?_⟩
      simp only [ClientRpc.other, hc]
      split <;> rfl
  | pushed ok =>
      refine ⟨.release i, rfl, (fun _ hfinish => by cases hfinish), ?_⟩
      simp only [ClientRpc.other, hc]
      rfl
  | draining ok =>
      refine ⟨.drain i, rfl, (fun _ hfinish => by cases hfinish), ?_⟩
      simp only [ClientRpc.other, hc]
      split <;> rfl
  | _ => cases hpush

namespace PolledLoop

/-- The steps that are only a matter of time. The poll returns when the loop
has been woken, and with the edges of connections. -/
def goesOn (s : PolledLoop S Req Resp) : PolledAction Req E → Bool
  | .loop (.poll es) =>
      (s.loop.waker || !es.isEmpty) && decide (es.map Prod.fst).Nodup &&
        es.all fun (token, _) =>
          match s.loop.slab token with
          | none => false
          | some id => (s.far id).near.readable || (s.far id).near.writable
  | .loop (.conn _ a) =>
      match s.loop.phase.current with
      | none => false
      | some id => (s.far id).near.goesOn (s.far id).server.phase a
  | .loop (.caller _ a) => ClientRpc.goesOn a
  | .loop (.pushRequest _) => false
  | .loop _ => true
  | .server id a =>
      (s.loop.entries id).isSome && (s.far id).far.goesOn (connOf s.loop id).phase a
  | .roomUp id => (s.loop.entries id).isSome && (bytesOf (s.far id).up).isEmpty
  | .roomDown id => (s.loop.entries id).isSome && (bytesOf (s.far id).down).isEmpty

/-- Nothing goes on of itself, or only with the loss of a wake. -/
def AtRest (process : E → S → Item Req → Except String (Item Resp) × S)
    (s : PolledLoop S Req Resp) : Prop :=
  ∀ a : PolledAction Req E, s.goesOn a = true → s.WakeFits a → s.step process a = none

variable {process : E → S → Item Req → Except String (Item Resp) × S}
  {s : PolledLoop S Req Resp} {id : ConnId} {e : Entry Unit Req Resp}

theorem Attentive.at_entry (hs : s.Attentive) (he : s.loop.entries id = some e) :
    Attended ⟨e.conn, (s.far id).server, (s.far id).up, (s.far id).down⟩ (s.ready id)
      (s.far id).far := by
  have h := hs.attended id
  rwa [AttendedAt, link, connOf_entry he] at h

/-! ## The loop at rest -/

theorem AtRest.loop (h : s.AtRest process) {a : LoopAction Unit Req}
    (hgoes : s.goesOn (.loop a : PolledAction Req E) = true) (hadmits : s.admits a = true)
    (hfits : s.loop.WakeFits a) : s.loop.step bytePipe a = none := by
  have hnone := h (.loop a) hgoes hfits
  simpa [step, hadmits] using hnone

theorem AtRest.ringing (h : s.AtRest process) : s.loop.ringing = 0 := by
  have hnone := h.loop (a := .ring) rfl rfl trivial
  by_contra hne
  simp [EventLoop.step, Nat.pos_of_ne_zero hne] at hnone

omit [Bincode Req] [Bincode Resp] in
theorem client_consume {h : ClientRpc (Item Req) (Item Resp)} (hlive : h.handler = .live)
    (m : Item Resp) : ((clientOps : HandlerOps Resp Req _ _).consume RpcAction.cloneProxy
      h m).isSome = true := by
  simp only [clientOps, ClientRpc.consume, hlive]
  cases h.inFlight with
  | nil => rfl
  | cons i rest => dsimp only; split <;> rfl

omit [Bincode Req] [Bincode Resp] in
theorem client_produce {h : ClientRpc (Item Req) (Item Resp)} (hlive : h.handler = .live) :
    ((clientOps : HandlerOps Resp Req _ _).produce RpcAction.cloneProxy h).isSome = true := by
  simp only [clientOps, ClientRpc.produce, hlive]
  split
  · rfl
  · split <;> rfl

/-- A loop at a connection goes on with it. -/
theorem AtRest.current (h : s.AtRest process) (hs : s.Attentive) : s.loop.phase.current = none := by
  cases hcur : s.loop.phase.current with
  | none => rfl
  | some id =>
      obtain ⟨e, he, -⟩ := hs.woken.slabbed.current id hcur
      obtain ⟨hidle, hremoved⟩ := (hs.seated.current id e he).mp hcur
      have hlive : e.conn.driver.handler.handler = .live :=
        (hs.at_entry he).rpc.clientLive hremoved
      obtain ⟨a, hgoes, hadmits, hstep⟩ := exists_goesOn (s.far id).near (s.far id).down
        (s.far id).up (s.far id).server.phase hidle hremoved RpcAction.cloneProxy
        (client_consume hlive) (client_produce hlive)
      have hother : a.isOther = false := by
        cases a with
        | other => cases hgoes
        | _ => rfl
      obtain ⟨⟨conn, toks, w⟩, hstep⟩ := Option.isSome_iff_exists.mp hstep
      have hconn' : clientStep bytePipe e.conn ((s.far id).down, a) = some conn :=
        Option.map_eq_some_iff.mpr ⟨_, hstep, rfl⟩
      have hnone := h.loop (a := .conn (s.far id).down a) (by simpa [goesOn, hcur] using hgoes)
        (by simpa [admits, hcur] using hadmits) trivial
      simp only [EventLoop.step, hcur, he, hother, hconn', Bool.false_eq_true, if_false] at hnone
      split at hnone <;> cases hnone

/-- The loop is blocked, or has stopped. -/
theorem AtRest.place (h : s.AtRest process) (hs : s.Attentive) :
    s.loop.phase = .polling ∨ s.loop.phase = .stopped := by
  have hcur := h.current hs
  cases hph : s.loop.phase with
  | polling => exact Or.inl rfl
  | stopped => exact Or.inr rfl
  | events es =>
      have hnone := h.loop (a := .nextEvent) rfl rfl trivial
      cases es <;> simp [EventLoop.step, hph] at hnone
  | popping =>
      have hnone := h.loop (a := .popRequest none) rfl rfl trivial
      cases hrequests : s.loop.requests with
      | nil => simp [EventLoop.step, hph, hrequests] at hnone
      | cons r rest => cases r <;> simp [EventLoop.step, hph, hrequests] at hnone
  | handlingEvent | handlingWake => simp [hph, LoopPhase.current] at hcur

/-! ## The callers at rest -/

theorem AtRest.caller (h : s.AtRest process) (he : s.loop.entries id = some e)
    {a : RpcAction (Item Req)} (hgoes : ClientRpc.goesOn a = true)
    (hmay : s.loop.mayStep id a = true) : e.conn.driver.handler.other a = none := by
  have hnone := h.loop (a := .caller id a) hgoes rfl trivial
  simp only [EventLoop.step, he, hmay, if_true] at hnone
  cases hother : e.conn.driver.handler.other a with
  | none => rfl
  | some handler =>
      rw [clientStep_caller, hother] at hnone
      cases hnone

theorem AtRest.requests (h : s.AtRest process) (hs : s.Attentive)
    (hph : s.loop.phase = .polling) : s.loop.waker = false ∧ s.loop.requests = [] := by
  have hwaker : s.loop.waker = false := by
    cases hwaker : s.loop.waker with
    | false => rfl
    | true =>
        have hnone := h.loop (a := .poll []) (by simp [goesOn, hwaker]) rfl trivial
        simp [EventLoop.step, hph] at hnone
  refine ⟨hwaker, ?_⟩
  by_contra hne
  rcases hs.woken.rung hne with hpolling | hwoken | hringing
  · exact hpolling hph
  · rw [hwaker] at hwoken
    cases hwoken
  · exact Nat.ne_of_gt hringing h.ringing

/-- Every wake that is owed has been pushed. -/
theorem AtRest.owing (h : s.AtRest process) (hs : s.Attentive) : s.loop.owing = [] := by
  cases howing : s.loop.owing with
  | nil => rfl
  | cons p rest =>
      obtain ⟨id, i⟩ := p
      have hi : (id, i) ∈ s.loop.owing := by rw [howing]; exact List.mem_cons_self ..
      obtain ⟨e, he⟩ := Option.isSome_iff_exists.mp (hs.owing id i hi)
      have hpush : callIs Call.inPush e.conn.driver.handler.calls i = false := by
        by_contra hpush
        obtain ⟨a, hgoes, hfinish, hsome⟩ :=
          ClientRpc.goesOn_of_inPush (Bool.eq_true_of_not_eq_false hpush)
        have hmay : s.loop.mayStep id a = true := by
          cases a with
          | finish j => exact absurd rfl (hfinish j)
          | _ => rfl
        rw [h.caller he hgoes hmay] at hsome
        cases hsome
      have hfits : s.loop.WakeFits (.pushWake id i) := by
        intro e' he' hlive
        rcases h.place hs with hph | hph
        · rw [(h.requests hs hph).2]
          decide
        · have := (hs.woken.slabbed.live id e' he' hlive).1
          rw [hs.woken.slabbed.stopped hph] at this
          cases this
      have hnone := h.loop (a := .pushWake id i) rfl rfl hfits
      simp only [EventLoop.step, he, hi, hpush, and_self, if_true] at hnone
      split at hnone <;> cases hnone

theorem AtRest.rpc (h : s.AtRest process) (hs : s.Attentive) (he : s.loop.entries id = some e) :
    ¬ e.conn.driver.handler.GoesOn := by
  rintro ⟨a, h', hgoes, hother⟩
  have hmay : s.loop.mayStep id a = true := by
    cases a <;> simp [EventLoop.mayStep, h.owing hs]
  rw [h.caller he hgoes hmay] at hother
  cases hother

/-! ## A connection at rest -/

/-- A loop that is blocked has nothing to do for a connection. -/
theorem AtRest.client_idle (h : s.AtRest process) (hs : s.Attentive)
    (hph : s.loop.phase = .polling) (he : s.loop.entries id = some e)
    (hup : e.conn.phase ≠ .removed) : e.conn.phase = .idle ∧ (s.ready id).readable = false ∧
      (s.ready id).writable = false := by
  have hidle := hs.seated.idle (h.current hs) he hup
  have htoken := (hs.woken.slabbed.live id e he ((hs.at_entry he).rpc.clientLive hup)).1
  have hedges : ((s.far id).near.readable || (s.far id).near.writable) = false := by
    by_contra hedge
    have hnone := h.loop (a := .poll [(e.token, true)])
      (by simpa [goesOn, htoken] using Bool.eq_true_of_not_eq_false hedge)
      (by simp [admits, htoken]) trivial
    simp [EventLoop.step, hph] at hnone
  have hreported : reported s.loop id = [] := reported_of_listed (by rw [hph]; rfl)
  obtain ⟨hreadable, hwritable⟩ := Bool.or_eq_false_iff.mp hedges
  exact ⟨hidle, by simp [ready, hreadable, hreported], by simp [ready, hwritable, hreported]⟩

/-- The server's loop has nothing to do for the connection. -/
theorem AtRest.server_idle [hE : Nonempty E] (h : s.AtRest process) (hs : s.Attentive)
    (he : s.loop.entries id = some e) (hup : (s.far id).server.phase ≠ .removed) :
    (s.far id).server.phase = .idle ∧ (s.far id).far.readable = false ∧
      (s.far id).far.writable = false := by
  obtain ⟨x⟩ := hE
  have hconn : connOf s.loop id = e.conn := connOf_entry he
  have hstuck : ∀ {a : ConnAction E},
      (s.far id).far.goesOn e.conn.phase a = true →
      (s.far id).far.admits (s.far id).up (s.far id).down e.conn.phase a = true →
      (s.far id).server.step bytePipe (serverOps process) (s.far id).up a = none := by
    intro a hgoes hadmits
    have hnone := h (.server id a) (by simpa [goesOn, he, hconn] using hgoes) trivial
    simp only [step, hconn, hadmits, if_true, Option.map_eq_none_iff] at hnone
    exact Option.map_eq_none_iff.mp hnone
  have hidle : (s.far id).server.phase = .idle := by
    by_contra hidle
    have hlive : (s.far id).server.driver.handler.dropped = false :=
      (hs.at_entry he).rpc.serverLive hup
    have hconsume : ∀ m, ((serverOps process).consume x (s.far id).server.driver.handler m).isSome
        = true := by
      intro m
      simp only [serverOps, hlive]
      split <;> first | rfl | simp_all
    have hproduce : ((serverOps process).produce x (s.far id).server.driver.handler).isSome
        = true := by
      simp only [serverOps, hlive]
      split <;> first | rfl | simp_all
    obtain ⟨a, hgoes, hadmits, hstep⟩ := exists_goesOn (s.far id).far (s.far id).up
      (s.far id).down e.conn.phase hidle hup x hconsume hproduce
    rw [hstuck hgoes hadmits] at hstep
    cases hstep
  have hedges : ((s.far id).far.readable || (s.far id).far.writable) = false := by
    by_contra hedge
    have := hstuck (a := .event true)
      (by simpa [Readiness.goesOn] using Bool.eq_true_of_not_eq_false hedge) rfl
    simp [Connection.step, hidle] at this
  exact ⟨hidle, Bool.or_eq_false_iff.mp hedges⟩

omit [Bincode Resp] in
/-- A lane that nothing moves on, and no whole message of which has arrived,
is empty. -/
theorem lane_empty {l : Lane Req} {pending : List (Item Req)} (h : l.InFlight pending)
    (hwire : bytesOf l.wire = []) (hout : l.outbound.buf = []) (hwhole : Partial Req l.unread) :
    pending = [] := by
  cases pending with
  | nil => rfl
  | cons m rest =>
      have hbytes := h.bytes
      rw [hwire, hout, List.append_nil, List.append_nil, framesOf_cons] at hbytes
      exact absurd ⟨_, hbytes.symm⟩ (hwhole m.body (h.encodes m (List.mem_cons_self ..)))

/-- The kernel has room for both ends, so they have sent everything. -/
theorem AtRest.sent (h : s.AtRest process) (he : s.loop.entries id = some e) :
    (bytesOf (s.far id).up = [] → (s.far id).near.full = false) ∧
      (bytesOf (s.far id).down = [] → (s.far id).far.full = false) := by
  constructor
  · intro hempty
    have hnone := h (.roomUp id) (by simp [goesOn, he, hempty]) trivial
    by_contra hfull
    simp [step, Bool.eq_true_of_not_eq_false hfull] at hnone
  · intro hempty
    have hnone := h (.roomDown id) (by simp [goesOn, he, hempty]) trivial
    by_contra hfull
    simp [step, Bool.eq_true_of_not_eq_false hfull] at hnone

/-- At rest, a connection that is up has no request without a response. -/
theorem AtRest.answered [Nonempty E] (h : s.AtRest process) (hs : s.Attentive)
    (hph : s.loop.phase = .polling) (he : s.loop.entries id = some e)
    (hup : e.conn.phase ≠ .removed) :
    e.conn.driver.handler.inFlight = [] ∧ e.conn.driver.handler.queue = [] := by
  obtain ⟨hidle, hreadable, hwritable⟩ := h.client_idle hs hph he hup
  have hlink := hs.at_entry he
  have hclient := hlink.client hup
  have hserverUp : (s.far id).server.phase ≠ .removed := by
    intro hgone
    have := hclient.ended hgone
    simp [hreadable, hidle, Phase.receiving, Phase.ending] at this
  obtain ⟨hidle', hreadable', hwritable'⟩ := h.server_idle hs he hserverUp
  have hserver := hlink.server hserverUp
  have hdown : bytesOf (s.far id).down = [] := by
    by_contra hne
    have := hclient.readable hne
    simp [hreadable, hidle, Phase.receiving] at this
  have hupStream : bytesOf (s.far id).up = [] := by
    by_contra hne
    have := hserver.readable hne
    simp [hreadable', hidle', Phase.receiving] at this
  obtain ⟨hroom, hroom'⟩ := h.sent he
  have hout : e.conn.outbound.buf = [] := by
    by_contra hne
    rcases hclient.writable (by simp [hidle, Phase.hasSent]) hne with hw | hfull
    · simp [hwritable] at hw
    · have : (s.far id).near.full = true := hfull
      rw [hroom hupStream] at this
      cases this
  have hout' : (s.far id).server.outbound.buf = [] := by
    by_contra hne
    rcases hserver.writable (by simp [hidle', Phase.hasSent]) hne with hw | hfull
    · simp [hwritable'] at hw
    · rw [hroom' hdown] at hfull
      cases hfull
  have hlive := hlink.rpc.clientLive hup
  have hqueue : e.conn.driver.handler.queue = [] := by
    by_contra hne
    rcases hs.woken.awaited.awaited he hlive hne with ⟨i, hi⟩ | hmem | ⟨hcur, -⟩
    · rw [h.owing hs] at hi
      cases hi
    · rw [(h.requests hs hph).2] at hmem
      cases hmem
    · rw [h.current hs] at hcur
      cases hcur
  have hresponses : (s.far id).server.driver.handler.inFlight = [] := by
    by_contra hne
    have := hlink.responses hserverUp hne
    simp [hidle', Phase.beforeDrained] at this
  obtain ⟨requests, responses, hreq, hres, haccepted, hprocessed, hpopped⟩ :=
    hlink.rpc.agreement.noLoss hup hserverUp
  obtain rfl : requests = [] := lane_empty hreq hupStream hout (hserver.whole (by simp [hidle']))
  obtain rfl : responses = [] := lane_empty hres hdown hout' (hclient.whole (by simp [hidle]))
  have hqueued := hlink.rpc.client.order.queued (Or.inl hlive)
  refine ⟨?_, hqueue⟩
  have h₁ := congrArg List.length haccepted
  have h₂ := congrArg List.length hprocessed
  have h₃ := congrArg List.length hpopped
  have h₄ := congrArg List.length hqueued
  simp only [hqueue, hresponses, List.length_append, List.length_map, List.length_nil]
    at h₁ h₂ h₃ h₄
  have hzero : e.conn.driver.handler.inFlight.length = 0 := by omega
  exact List.length_eq_zero_iff.mp hzero

variable (process) in
/-- Some step is only a matter of time while a call has not returned. -/
theorem Attentive.no_deadlock [Nonempty E] (hs : s.Attentive) (he : s.loop.entries id = some e)
    {i : CallId} {c : Call (Item Req) (Item Resp)} (hc : e.conn.driver.handler.calls i = some c)
    (hopen : ∀ r, c.phase ≠ .returned r) : ∃ a : PolledAction Req E,
      s.goesOn a = true ∧ s.WakeFits a ∧ (s.step process a).isSome = true := by
  by_contra hnone
  have h : s.AtRest process := by
    intro a hgoes hfits
    by_contra hne
    exact hnone ⟨a, hgoes, hfits, Option.isSome_iff_ne_none.mpr hne⟩
  have hrpc := (hs.at_entry he).rpc.client
  obtain ⟨hinFlight, hqueue⟩ :
      e.conn.driver.handler.inFlight = [] ∧ e.conn.driver.handler.queue = [] := by
    by_cases hlive : e.conn.driver.handler.handler = .live
    · obtain ⟨htoken, hup⟩ := hs.woken.slabbed.live id e he hlive
      refine h.answered hs ((h.place hs).resolve_right fun hstopped => ?_) he hup
      rw [hs.woken.slabbed.stopped hstopped] at htoken
      cases htoken
    · exact (hrpc.ownership.at_rest hrpc.results hlive (h.rpc hs he)).2
  obtain ⟨r, hr⟩ :=
    hrpc.ownership.returned_at_rest hrpc.results hinFlight hqueue (h.rpc hs he) hc
  exact hopen r hr

end PolledLoop

end Audioipc

import Audioipc.Effects

/-!
# Two connections and the two streams between them

A client connection, a server connection, and the stream in each direction.
A step is a step of one of the two; what it puts on its outgoing stream is
appended there.

`Link.Inv` is the invariant of all runs whose sends meet the pipe's
condition: each direction is a lane with some messages in flight, the pipes
are clean, descriptors are transferred and delivered in order, and neither
side has panicked over what it received. The two directions are the same
argument, stated once about a sender, a receiver and the stream between
them (`Half`).
-/

namespace Audioipc

/-! ## One direction -/

section Half

variable {P In Out H H' E : Type} [AssociateHandleForMessage In]
  [Bincode Out] [AssociateHandleForMessage Out]

def laneOf (s : Connection P In Out H) (r : Connection P Out In H') (w : List Tok) :
    Lane Out :=
  ⟨s.log.sent, s.outbound, w, r.unread, r.inbound.handles, r.log.received⟩

structure Half (s : Connection P In Out H) (r : Connection P Out In H') (w : List Tok)
    (pending : List (Item Out)) : Prop where
  lane : (laneOf s r w).InFlight pending
  transferred : s.log.transferred ++ s.outbound.handles = handlesOf s.log.sent
  pushed : r.log.pushed ++ fdsOf w = s.log.transferred

variable {s s' : Connection P In Out H} {r r' : Connection P Out In H'} {w w' toks : List Tok}
  {pending pending' : List (Item Out)}

theorem Half.sends (h : Half s r w pending) (hs : Sends s s' toks) :
    ∃ pending', Half s' r (w ++ toks) pending' := by
  cases hs with
  | nothing hsent hout htransferred =>
      refine ⟨pending, ?_, ?_, ?_⟩
      · simpa only [laneOf, hsent, hout, List.append_nil] using h.lane
      · rw [htransferred, hout, hsent]; exact h.transferred
      · rw [htransferred, List.append_nil]; exact h.pushed
  | encoded m hm hsent hbuf hhandles htransferred =>
      refine ⟨pending ++ [m], ?_, ?_, ?_⟩
      · simpa only [laneOf, hsent, List.append_nil] using h.lane.enqueue hm hbuf hhandles
      · rw [htransferred, hhandles, hsent, handlesOf_append, ← h.transferred, handlesOf_cons,
          handlesOf_nil, List.append_nil, List.append_assoc]
      · rw [htransferred, List.append_nil]; exact h.pushed
  | sent n hsent hout htransferred =>
      refine ⟨pending, ?_, ?_, ?_⟩
      · simpa only [laneOf, hsent, hout] using h.lane.send n
      · rw [htransferred, hout, hsent, ← h.transferred]
        exact List.append_nil _
      · rw [htransferred, fdsOf_append, fdsOf_segment, ← h.pushed, List.append_assoc]

theorem Half.receives (h : Half s r w pending) (hr : Receives r r' w pending w' pending') :
    Half s r' w' pending' := by
  cases hr with
  | nothing hunread hhandles hreceived hpushed =>
      refine ⟨?_, h.transferred, by rw [hpushed]; exact h.pushed⟩
      simpa only [laneOf, hunread, hhandles, hreceived] using h.lane
  | received frag w' hw hunread hhandles hreceived hpushed =>
      refine ⟨?_, h.transferred, ?_⟩
      · simpa only [laneOf, hunread, hhandles, hreceived] using h.lane.recv hw
      · rw [hpushed, ← h.pushed, hw, fdsOf_append, List.append_assoc]
  | delivered m rest hpending hunread hhandles hreceived hpushed =>
      subst hpending
      refine ⟨?_, h.transferred, by rw [hpushed]; exact h.pushed⟩
      simpa only [laneOf, hreceived] using h.lane.deliver hunread hhandles

end Half

/-! ## Both directions -/

structure Link (P Req Resp HC HS : Type) [AssociateHandleForMessage Req]
    [AssociateHandleForMessage Resp] where
  client : Connection P Resp Req HC
  server : Connection P Req Resp HS
  up : List Tok
  down : List Tok

inductive LinkAction (EC ES : Type) where
  | client (a : ConnAction EC)
  | server (a : ConnAction ES)

section Link

variable {P Req Resp HC HS EC ES : Type} [Bincode Req] [AssociateHandleForMessage Req]
  [Bincode Resp] [AssociateHandleForMessage Resp]

namespace Link

def new (io : P) (client : HC) (server : HS) : Link P Req Resp HC HS where
  client := .new io client
  server := .new io server
  up := []
  down := []

def step (pipe : PipeOps P) (cops : HandlerOps Resp Req HC EC) (sops : HandlerOps Req Resp HS ES)
    (k : Link P Req Resp HC HS) : LinkAction EC ES → Option (Link P Req Resp HC HS)
  | .client a => (k.client.step pipe cops k.down a).map fun (client, toks, down) =>
      { k with client, up := k.up ++ toks, down }
  | .server a => (k.server.step pipe sops k.up a).map fun (server, toks, up) =>
      { k with server, down := k.down ++ toks, up }

/-- The pipe's condition on sends, for the steps of a link. -/
def GoodSends (OkSend : ConnectionBuffer → Except IoError Nat → Prop)
    (k : Link P Req Resp HC HS) : LinkAction EC ES → Prop
  | .client a => GoodSend OkSend k.client a
  | .server a => GoodSend OkSend k.server a

instance {OkSend : ConnectionBuffer → Except IoError Nat → Prop} [∀ b r, Decidable (OkSend b r)]
    (k : Link P Req Resp HC HS) (a : LinkAction EC ES) : Decidable (GoodSends OkSend k a) := by
  unfold GoodSends; split <;> infer_instance

structure Inv (Clean : P → Prop) (k : Link P Req Resp HC HS) : Prop where
  up : ∃ pending, Half k.client k.server k.up pending
  down : ∃ pending, Half k.server k.client k.down pending
  clientClean : k.client.phase ≠ .removed → Clean k.client.io
  serverClean : k.server.phase ≠ .removed → Clean k.server.io
  clientPanic : ∀ p, k.client.panic = some p → p.Local
  serverPanic : ∀ p, k.server.panic = some p → p.Local

variable {pipe : PipeOps P} {cops : HandlerOps Resp Req HC EC} {sops : HandlerOps Req Resp HS ES}
  {Clean : P → Prop} {OkSend : ConnectionBuffer → Except IoError Nat → Prop}

theorem inv_new {io : P} (hio : Clean io) (client : HC) (server : HS) :
    (new io client server : Link P Req Resp HC HS).Inv Clean where
  up := ⟨[], Lane.inFlight_empty, rfl, rfl⟩
  down := ⟨[], Lane.inFlight_empty, rfl, rfl⟩
  clientClean _ := hio
  serverClean _ := hio
  clientPanic := nofun
  serverPanic := nofun

/-- A panic that was not there before is one of the harmless kind. -/
theorem local_of_effect {p₀ p₁ : Option Panic} (h₀ : ∀ p, p₀ = some p → p.Local)
    (h : p₁ = p₀ ∨ ∃ p, p₁ = some p ∧ p.Local) : ∀ p, p₁ = some p → p.Local := by
  rintro p rfl
  rcases h with h | ⟨q, hq, hloc⟩
  · exact h₀ p h.symm
  · cases hq; exact hloc

/-- The messages one side has received are a prefix of those the other has
sent, and the handles of each are those it was sent with. -/
theorem Inv.received_prefix {k : Link P Req Resp HC HS} (hk : k.Inv Clean) :
    k.server.log.received <+: k.client.log.sent ∧
      k.client.log.received <+: k.server.log.sent := by
  obtain ⟨upPending, hup⟩ := hk.up
  obtain ⟨downPending, hdown⟩ := hk.down
  exact ⟨⟨upPending, hup.lane.messages.symm⟩, ⟨downPending, hdown.lane.messages.symm⟩⟩

/-- A step of a link is a step of one of the handlers. -/
theorem step_handled {k k' : Link P Req Resp HC HS} {a : LinkAction EC ES}
    (h : step pipe cops sops k a = some k') :
    (Handled cops k.client k'.client ∧ k'.server = k.server) ∨
      (Handled sops k.server k'.server ∧ k'.client = k.client) := by
  cases a with
  | client a =>
      obtain ⟨⟨c, toks, w⟩, hstep, rfl⟩ := Option.map_eq_some_iff.mp h
      exact Or.inl ⟨Audioipc.step_handled hstep, rfl⟩
  | server a =>
      obtain ⟨⟨s, toks, w⟩, hstep, rfl⟩ := Option.map_eq_some_iff.mp h
      exact Or.inr ⟨Audioipc.step_handled hstep, rfl⟩

variable [LawfulBincode Req] [LawfulBincode Resp]

theorem step_inv (hpipe : LawfulPipe pipe Clean OkSend) {k k' : Link P Req Resp HC HS}
    {a : LinkAction EC ES} (hk : k.Inv Clean) (hgood : GoodSends OkSend k a)
    (h : step pipe cops sops k a = some k') : k'.Inv Clean := by
  obtain ⟨upPending, hup⟩ := hk.up
  obtain ⟨downPending, hdown⟩ := hk.down
  cases a with
  | client a =>
      obtain ⟨⟨c, toks, w⟩, hstep, rfl⟩ := Option.map_eq_some_iff.mp h
      obtain ⟨pending', heff⟩ := step_effect hpipe hdown.lane rfl rfl rfl hk.clientClean hgood hstep
      exact ⟨hup.sends heff.sends, ⟨_, hdown.receives heff.receives⟩, heff.clean,
        hk.serverClean, local_of_effect hk.clientPanic heff.panics, hk.serverPanic⟩
  | server a =>
      obtain ⟨⟨s, toks, w⟩, hstep, rfl⟩ := Option.map_eq_some_iff.mp h
      obtain ⟨pending', heff⟩ := step_effect hpipe hup.lane rfl rfl rfl hk.serverClean hgood hstep
      exact ⟨⟨_, hup.receives heff.receives⟩, hdown.sends heff.sends, hk.clientClean,
        heff.clean, hk.clientPanic, local_of_effect hk.serverPanic heff.panics⟩

end Link

end Link

end Audioipc

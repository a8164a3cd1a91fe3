import Audioipc.Link
import Audioipc.Lts
import Audioipc.UnixPipe

/-!
# Handles reach the messages they were sent with

Two connections on Unix pipes, with any handlers on either side. `Paired`
is what the out-of-band transfer of descriptors has to guarantee.

It holds in every run in which no `send_msg` that would block is entered
with handles queued (`handle_pairing`). It does not hold in every run: the
error branch of `send_msg` leaves the descriptors it has encoded in `cmsg`.
The retry then encodes them a second time, and a receive in between takes
them for descriptors of the peer (`stale_cmsg_run`).
-/

namespace Audioipc

variable {Req Resp HC HS EC ES : Type} [Bincode Req] [AssociateHandleForMessage Req]
  [Bincode Resp] [AssociateHandleForMessage Resp]

/-- Each handle is transferred once, in the order of the messages; nothing
but what the peer transferred is pushed to an inbound queue; the messages
received are the messages sent, each with its own handle; and
`pop_handle().expect` has not fired. -/
structure Paired (k : Link ControlBuffer Req Resp HC HS) : Prop where
  clientTransferred :
    k.client.log.transferred ++ k.client.outbound.handles = handlesOf k.client.log.sent
  serverTransferred :
    k.server.log.transferred ++ k.server.outbound.handles = handlesOf k.server.log.sent
  clientPushed : k.client.log.pushed <+: k.server.log.transferred
  serverPushed : k.server.log.pushed <+: k.client.log.transferred
  clientReceived : k.client.log.received <+: k.server.log.sent
  serverReceived : k.server.log.received <+: k.client.log.sent
  clientExpect : k.client.panic ≠ some .inboundHandleExpected
  serverExpect : k.server.panic ≠ some .inboundHandleExpected

theorem Link.Inv.paired {k : Link ControlBuffer Req Resp HC HS}
    (hk : k.Inv ControlBuffer.Clean) : Paired k := by
  obtain ⟨upPending, hup⟩ := hk.up
  obtain ⟨downPending, hdown⟩ := hk.down
  exact {
    clientTransferred := hup.transferred
    serverTransferred := hdown.transferred
    clientPushed := ⟨_, hdown.pushed⟩
    serverPushed := ⟨_, hup.pushed⟩
    clientReceived := hk.received_prefix.2
    serverReceived := hk.received_prefix.1
    clientExpect := fun h => hk.clientPanic _ h
    serverExpect := fun h => hk.serverPanic _ h }

/-- In every run whose failing sends have no handles queued, handles and
messages stay paired. -/
theorem handle_pairing [LawfulBincode Req] [LawfulBincode Resp]
    (cops : HandlerOps Resp Req HC EC) (sops : HandlerOps Req Resp HS ES)
    (client : HC) (server : HS) {as : List (LinkAction EC ES)}
    {k : Link ControlBuffer Req Resp HC HS}
    (hgood : Lts.Within (Link.step unixPipe cops sops) (Link.GoodSends SendKeepsClean)
      (.new .new client server) as)
    (hrun : Lts.runs (Link.step unixPipe cops sops) (.new .new client server) as = some k) :
    Paired k := by
  have hinit : (Link.new .new client server : Link ControlBuffer Req Resp HC HS).Inv
      ControlBuffer.Clean :=
    Link.inv_new (show ControlBuffer.Clean .new from rfl) client server
  have hstep : ∀ (k : Link ControlBuffer Req Resp HC HS) (a : LinkAction EC ES) k',
      k.Inv ControlBuffer.Clean → Link.GoodSends SendKeepsClean k a →
      Link.step unixPipe cops sops k a = some k' → k'.Inv ControlBuffer.Clean :=
    fun _ _ _ hk hG h => Link.step_inv unixPipe_lawful hk hG h
  have hk : k.Inv ControlBuffer.Clean := Lts.runs_within_invariant hstep hinit hgood hrun
  exact hk.paired

/-! ## Two runs -/

/-- A handler that has its messages ready and accepts every message. -/
def scripted : HandlerOps Bool Bool (List (Item Bool)) Unit where
  consume _ h _ := some (.ok (.ok ()), h)
  produce _ h := some (.ok h.head?, h.tail)
  other _ _ := none
  drop _ := []

/-- The client's only message waits for room once. The server's first send
takes all handles and half of the bytes, its next one would block, and the
client receives what has come before the rest. -/
def pairingScript : List (LinkAction Unit Unit) :=
  [.client .wake, .client (.flushItem ()), .client (.flushItem ()),
   .client (.sendMsg (.error .wouldBlock)), .client (.finish true),
   .client (.event false), .client (.flushItem ()), .client (.sendMsg (.ok 13)),
   .client (.finish true), .server (.event true), .server (.recvMsg (.ok 13)),
   .server (.processItem ()), .server (.processItem ()),
   .server (.recvMsg (.error .wouldBlock)), .server (.flushItem ()), .server (.flushItem ()),
   .server (.flushItem ()), .server (.flushItem ()), .server (.sendMsg (.ok 20)),
   .server (.sendMsg (.error .wouldBlock)), .server (.finish true),
   .client (.event true), .client (.recvMsg (.ok 20)), .client (.processItem ()),
   .client (.processItem ()), .client (.recvMsg (.error .wouldBlock)), .client (.flushItem ()),
   .client (.finish true), .server (.event false), .server (.flushItem ()),
   .server (.sendMsg (.ok 19)), .server (.finish true), .client (.event true),
   .client (.recvMsg (.ok 19)), .client (.processItem ()), .client (.processItem ()),
   .client (.processItem ())]

/-- Three messages with two handles, of which the last is split between two
receives. -/
theorem handle_pairing_run : ∃ k : Link ControlBuffer Bool Bool (List (Item Bool))
    (List (Item Bool)), k.client.log.received.map Item.handle = [some 7, none, some 8] ∧
      Paired k := by
  let messages : List (Item Bool) :=
    [⟨true, some 7, rfl⟩, ⟨false, none, rfl⟩, ⟨true, some 8, rfl⟩]
  have hrun : (Lts.runs (Link.step unixPipe scripted scripted)
      (.new .new [⟨false, none, rfl⟩] messages) pairingScript).map
        (fun k => k.client.log.received.map Item.handle) = some [some 7, none, some 8] := by
    decide +kernel
  obtain ⟨k, hk, heq⟩ := Option.map_eq_some_iff.mp hrun
  exact ⟨k, heq, handle_pairing scripted scripted [⟨false, none, rfl⟩] messages
    (by decide +kernel) hk⟩

/-- The server has a message with the handle 7. Its first send would block,
the client's message arrives, the second send would block too, the third
does not. -/
def staleCmsgScript : List (LinkAction Unit Unit) :=
  [.client .wake, .client (.flushItem ()), .client (.flushItem ()), .client (.sendMsg (.ok 13)),
   .server .wake, .server (.flushItem ()), .server (.flushItem ()),
   .server (.sendMsg (.error .wouldBlock)), .server (.finish true),
   .server (.event true), .server (.recvMsg (.ok 13)), .server (.processItem ()),
   .server (.processItem ()), .server (.recvMsg (.error .wouldBlock)), .server (.flushItem ()),
   .server (.sendMsg (.error .wouldBlock)), .server (.finish true),
   .server (.event false), .server (.flushItem ()), .server (.sendMsg (.ok 13))]

/-- One handle was attached; two descriptors were transferred, and the
server has taken a third for one of the client's, which sent none. -/
theorem stale_cmsg_run : ∃ k, Lts.runs (Link.step unixPipe scripted scripted)
      (.new .new [⟨false, none, rfl⟩] [⟨true, some 7, rfl⟩]) staleCmsgScript = some k ∧
    handlesOf k.server.log.sent = [7] ∧ k.server.log.transferred = [7, 7] ∧
    k.server.log.pushed = [7] ∧ handlesOf k.client.log.sent = [] ∧ ¬ Paired k := by
  have hrun : (Lts.runs (Link.step unixPipe scripted scripted)
      (.new .new [⟨false, none, rfl⟩] [⟨true, some 7, rfl⟩]) staleCmsgScript).map
        (fun k => (handlesOf k.server.log.sent, k.server.log.transferred,
          k.server.log.pushed, handlesOf k.client.log.sent, k.server.outbound.handles))
      = some ([7], [7, 7], [7], [], []) := by decide +kernel
  obtain ⟨k, hk, heq⟩ := Option.map_eq_some_iff.mp hrun
  simp only [Prod.mk.injEq] at heq
  obtain ⟨hsent, htransferred, hpushed, hclient, hqueued⟩ := heq
  refine ⟨k, hk, hsent, htransferred, hpushed, hclient, fun h => ?_⟩
  have := h.serverTransferred
  rw [hsent, htransferred, hqueued] at this
  cases this

end Audioipc

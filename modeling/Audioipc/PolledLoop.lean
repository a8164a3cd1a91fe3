import Audioipc.Readiness
import Audioipc.Wakes

/-!
# A loop and what is at the other ends

The `EventLoop` takes the events of the poll and the streams of its
connections as they come. Here they come from somewhere: each of its
connections has a server at the other end of two streams (`FarEnd`), and the
poll reports the edges of both (`Readiness`). The loop is shared by all its
connections, with its queue, its waker and its one thread.

`Attended` is what the two ends of a connection keep to, whichever of them
takes a step.
-/

namespace Audioipc

variable {S E Req Resp : Type} [Bincode Req] [AssociateHandleForMessage Req]
  [Bincode Resp] [AssociateHandleForMessage Resp]

theorem Readiness.peered_same {r : Readiness} {a : ConnAction E} {ph ph' : Phase}
    (hsends : Readiness.sends a = false) (hgone : ph' = .removed → ph = .removed) :
    r.peered a ph ph' = r := by
  by_cases hph' : ph' = .removed
  · simp [Readiness.peered, hsends, hgone hph']
  · simp [Readiness.peered, hsends, beq_eq_false_iff_ne.mpr hph']

/-- Nothing but the handling of an event takes notice of anything. -/
theorem Readiness.after_eq {a : ConnAction E} (h : ∀ readable, a ≠ .event readable) :
    ∃ blocked, ∀ r : Readiness, r.after a = { r with full := r.full || blocked } := by
  cases a with
  | event readable => exact absurd rfl (h readable)
  | sendMsg x =>
      rcases x with e | n
      · cases e with
        | wouldBlock => exact ⟨true, fun r => by simp [Readiness.after]⟩
        | _ => exact ⟨false, fun r => by simp [Readiness.after]⟩
      · exact ⟨false, fun r => by simp [Readiness.after]⟩
  | _ => exact ⟨false, fun r => by simp [Readiness.after]⟩

theorem Readiness.admits_eq {a : ConnAction E} (h : ∀ readable, a ≠ .event readable)
    (r r' : Readiness) {w v : List Tok} {peer : Phase} :
    r.admits w v peer a = r'.admits w v peer a := by
  cases a with
  | event readable => exact absurd rfl (h readable)
  | _ => rfl

/-- The server of a connection, the two streams, and what is left to report of
the near and of the far end. -/
structure FarEnd (S Req Resp : Type) [AssociateHandleForMessage Req]
    [AssociateHandleForMessage Resp] where
  server : Connection Unit Req Resp (ServerHandler S Req Resp)
  up : List Tok
  down : List Tok
  near : Readiness
  far : Readiness

/-- `bound` are the connections there have been. -/
structure PolledLoop (S Req Resp : Type) [AssociateHandleForMessage Req]
    [AssociateHandleForMessage Resp] where
  loop : EventLoop Unit Req Resp
  far : ConnId → FarEnd S Req Resp
  bound : List ConnId

/-- `roomUp` and `roomDown`: the kernel has room for what an end sends. -/
inductive PolledAction (Req E : Type) [AssociateHandleForMessage Req] where
  | loop (a : LoopAction Unit Req)
  | server (id : ConnId) (a : ConnAction E)
  | roomUp (id : ConnId)
  | roomDown (id : ConnId)

/-- The events that the loop has yet to handle. -/
def LoopPhase.listed : LoopPhase → List (Token × Bool)
  | .events es | .handlingEvent _ es => es
  | _ => []

namespace PolledLoop

def start (server : ConnId → S) : PolledLoop S Req Resp where
  loop := .new
  far id := ⟨.new () (.new (server id)), [], [], .new, .new⟩
  bound := []

/-- A connection that is not bound yet is as it will be. -/
def connOf (l : EventLoop Unit Req Resp) (id : ConnId) : ClientConnection Unit Req Resp :=
  match l.entries id with
  | some e => e.conn
  | none => .new () .new

def link (s : PolledLoop S Req Resp) (id : ConnId) : RpcLink Unit S Req Resp :=
  ⟨connOf s.loop id, (s.far id).server, (s.far id).up, (s.far id).down⟩

def reported (l : EventLoop Unit Req Resp) (id : ConnId) : List Bool :=
  (l.phase.listed.filter fun e => l.slab e.1 = some id).map Prod.snd

/-- What the loop has yet to take notice of. -/
def ready (s : PolledLoop S Req Resp) (id : ConnId) : Readiness where
  readable := (s.far id).near.readable || (reported s.loop id).contains true
  writable := (s.far id).near.writable || !(reported s.loop id).isEmpty
  full := (s.far id).near.full

/-- Events may be spurious, but report what there is; the connection that the
loop is at reads its own stream. -/
def admits (s : PolledLoop S Req Resp) : LoopAction Unit Req → Bool
  | .poll es => es.all fun (token, readable) =>
      match s.loop.slab token with
      | none => true
      | some id => readable || !(s.far id).near.readable
  | .conn w a =>
      match s.loop.phase.current with
      | none => false
      | some id => w = (s.far id).down &&
          (s.far id).near.admits w (s.far id).up (s.far id).server.phase a
  | _ => true

variable (process : E → S → Item Req → Except String (Item Resp) × S)

/-- The other ends after a step of the loop. -/
def farAfter (s : PolledLoop S Req Resp) (loop : EventLoop Unit Req Resp) :
    LoopAction Unit Req → ConnId → FarEnd S Req Resp
  | .poll es => fun id =>
      if es.any fun e => s.loop.slab e.1 = some id then
        { s.far id with near := { (s.far id).near with readable := false, writable := false } }
      else s.far id
  | .conn _ a =>
      match s.loop.phase.current with
      | none => s.far
      | some id =>
          match rpcStep process (s.link id) (.client a) with
          | none => s.far
          | some k => Function.update s.far id
              ⟨k.server, k.up, k.down, (s.far id).near.after a,
                (s.far id).far.peered a (connOf s.loop id).phase k.client.phase⟩
  -- `Shutdown` removes all connections
  | .popRequest _ => fun id =>
      let f := s.far id
      { f with
        far := f.far.peered (.shutdown : ConnAction E) (connOf s.loop id).phase
          (connOf loop id).phase }
  | _ => s.far

def boundAfter (s : PolledLoop S Req Resp) (loop : EventLoop Unit Req Resp) :
    LoopAction Unit Req → List ConnId
  | .popRequest (some (id, _)) =>
      if (s.loop.entries id).isNone && (loop.entries id).isSome then id :: s.bound else s.bound
  | _ => s.bound

def afterLoop (s : PolledLoop S Req Resp) (a : LoopAction Unit Req)
    (loop : EventLoop Unit Req Resp) : PolledLoop S Req Resp :=
  ⟨loop, s.farAfter process loop a, s.boundAfter loop a⟩

def step (s : PolledLoop S Req Resp) : PolledAction Req E → Option (PolledLoop S Req Resp)
  | .loop a =>
      if s.admits a then (s.loop.step bytePipe a).map (s.afterLoop process a) else none
  | .server id a =>
      let f := s.far id
      if f.far.admits f.up f.down (connOf s.loop id).phase a then
        (rpcStep process (s.link id) (.server a)).map fun k =>
          { s with
            far := Function.update s.far id
              ⟨k.server, k.up, k.down, f.near.peered a f.server.phase k.server.phase,
                f.far.after a⟩ }
      else none
  | .roomUp id =>
      let f := s.far id
      if f.near.full then
        some { s with far := Function.update s.far id { f with near := f.near.room } }
      else none
  | .roomDown id =>
      let f := s.far id
      if f.far.full then
        some { s with far := Function.update s.far id { f with far := f.far.room } }
      else none

/-- No wake for a live handler is dropped. -/
def WakeFits (s : PolledLoop S Req Resp) : PolledAction Req E → Prop
  | .loop a => s.loop.WakeFits a
  | _ => True

instance (s : PolledLoop S Req Resp) : ∀ a : PolledAction Req E, Decidable (s.WakeFits a)
  | .loop a => inferInstanceAs (Decidable (s.loop.WakeFits a))
  | .server .. | .roomUp _ | .roomDown _ => inferInstanceAs (Decidable True)

/-! ## The ends of a connection -/

/-- What the two ends of a connection keep to. -/
structure Attended (k : RpcLink Unit S Req Resp) (near far : Readiness) : Prop where
  rpc : RpcInv k
  client : k.client.phase ≠ .removed → Attends k.client near k.down k.server.phase
  server : k.server.phase ≠ .removed → Attends k.server far k.up k.client.phase
  dropped : k.client.phase = .removed → k.client.driver.handler.handler ≠ .live
  responses : k.server.phase ≠ .removed → k.server.driver.handler.inFlight ≠ [] →
    k.server.phase.beforeDrained = true

theorem attended_start (server : S) :
    Attended (rpcStart server : RpcLink Unit S Req Resp) .new .new where
  rpc := rpcInv_start server
  client _ := attends_new _
  server _ := attends_new _
  dropped h := by cases h
  responses _ h := absurd rfl h

omit [Bincode Req] [Bincode Resp] in
theorem inFlight_of_produce {process : E → S → Item Req → Except String (Item Resp) × S} {e : E}
    {h h' : ServerHandler S Req Resp}
    (hproduce : (serverOps process).produce e h = some (.ok none, h')) : ¬ h'.inFlight ≠ [] := by
  simp only [serverOps] at hproduce
  split at hproduce <;> cases hproduce
  rename_i hempty
  exact fun hne => hne hempty

theorem rpcStep_client (process : E → S → Item Req → Except String (Item Resp) × S)
    {k : RpcLink Unit S Req Resp} {c : ClientConnection Unit Req Resp} {toks down : List Tok}
    {a : ConnAction (RpcAction (Item Req))}
    (hstep : k.client.step bytePipe clientOps k.down a = some (c, toks, down)) :
    rpcStep process k (.client a) = some ⟨c, k.server, k.up ++ toks, down⟩ := by
  simp only [rpcStep, Link.step, hstep, Option.map_some]

namespace Attended

variable {process : E → S → Item Req → Except String (Item Resp) × S}
  {k k' : RpcLink Unit S Req Resp} {near far near' far' : Readiness}

/-- More may be left to report, and to a connection that is removed nothing is. -/
theorem mono (h : Attended k near far) (hnear : k.client.phase ≠ .removed →
    (near.readable = true → near'.readable = true) ∧
    (near.writable = true → near'.writable = true) ∧ (near.full = true → near'.full = true)) :
    Attended k near' far where
  rpc := h.rpc
  client hph := (h.client hph).mono (hnear hph).1 (hnear hph).2.1 (hnear hph).2.2
  server := h.server
  dropped := h.dropped
  responses := h.responses

theorem roomUp (h : Attended k near far) : Attended k near.room far :=
  ⟨h.rpc, fun hph => (h.client hph).room, h.server, h.dropped, h.responses⟩

theorem roomDown (h : Attended k near far) : Attended k near far.room :=
  ⟨h.rpc, h.client, fun hph => (h.server hph).room, h.dropped, h.responses⟩

variable [LawfulBincode Req] [LawfulBincode Resp]

theorem clientStep (h : Attended k near far) {a : ConnAction (RpcAction (Item Req))}
    (ha : near.admits k.down k.up k.server.phase a = true)
    {c : ClientConnection Unit Req Resp} {toks down : List Tok}
    (hconn : k.client.step bytePipe clientOps k.down a = some (c, toks, down)) :
    Attended ⟨c, k.server, k.up ++ toks, down⟩ (near.after a)
      (far.peered a k.client.phase c.phase) := by
  have hrpc := rpcInv_step h.rpc
    (rpcStep_client (fun (_ : Unit) s _ => (.error "", s)) hconn)
  have hgoes := step_goes hconn
  have hstays : c.phase ≠ .removed → k.client.phase ≠ .removed :=
    fun hph hold => hph (hgoes.stays hold)
  have hclient : Audioipc.clientStep bytePipe k.client (k.down, a) = some c :=
    Option.map_eq_some_iff.mpr ⟨_, hconn, rfl⟩
  exact ⟨hrpc, fun hph => (h.client (hstays hph)).step ha hconn hph,
    fun hph => (h.server hph).peered hgoes.sends hgoes.stays,
    clientStep_removed hclient h.dropped, h.responses⟩

theorem serverStep (h : Attended k near far) {a : ConnAction E}
    (ha : far.admits k.up k.down k.client.phase a = true)
    (hstep : rpcStep process k (.server a) = some k') :
    Attended k' (near.peered a k.server.phase k'.server.phase) (far.after a) := by
  have hrpc := rpcInv_step h.rpc hstep
  obtain ⟨⟨c, toks, up⟩, hconn, rfl⟩ := Option.map_eq_some_iff.mp hstep
  have hgoes := step_goes hconn
  have hstays : c.phase ≠ .removed → k.server.phase ≠ .removed :=
    fun hph hold => hph (hgoes.stays hold)
  refine ⟨hrpc, fun hph => (h.client hph).peered hgoes.sends hgoes.stays,
    fun hph => (h.server (hstays hph)).step ha hconn hph, h.dropped, fun hph hbusy => ?_⟩
  cases hlate : c.phase.beforeDrained with
  | true => rfl
  | false =>
      cases hother : a.isOther with
      | true =>
          cases a with
          | other e =>
              cases hgoes with
              | removed _ hph' => exact absurd hph' hph
              | other _ _ _ _ hops => cases hops
          | _ => cases hother
      | false =>
          obtain ⟨hlate', hsame⟩ := hgoes.drained (fun h => h.inFlight ≠ [])
            (fun _ _ _ => inFlight_of_produce) hother hph hbusy hlate
          have hbusy' : k.server.driver.handler.inFlight ≠ [] := by
            dsimp only at hbusy
            rwa [hsame] at hbusy
          have := h.responses (hstays hph) hbusy'
          rw [hlate'] at this
          cases this

theorem start (h : Attended k near far) {a : ConnAction (RpcAction (Item Req))}
    {c : ClientConnection Unit Req Resp}
    (hstep : k.client.step bytePipe clientOps k.down a = some (c, [], k.down))
    (hph : c.phase ≠ .removed) (hattends : k.client.phase ≠ .removed →
      Attends c near' k.down k.server.phase) : Attended { k with client := c } near' far := by
  have hrpc := rpcInv_step h.rpc
    (rpcStep_client (fun (_ : Unit) s _ => (.error "", s)) hstep)
  rw [List.append_nil] at hrpc
  have hup : k.client.phase ≠ .removed := fun hold => hph ((step_goes hstep).stays hold)
  refine ⟨hrpc, fun _ => hattends hup, fun hserver => ?_,
    fun hremoved => absurd hremoved hph, h.responses⟩
  have hserver' := h.server hserver
  exact ⟨hserver'.readable, hserver'.writable, hserver'.whole, fun hgone => absurd hgone hph,
    fun hend => absurd (hserver'.ending hend) hup, hserver'.blocked⟩

theorem event (h : Attended k near far) {readable : Bool} (hidle : k.client.phase = .idle)
    (hkept : readable = false → near.readable = true → near'.readable = true) :
    Attended { k with client := k.client.handleEvent readable } near' far :=
  h.start (a := .event readable) (by simp only [Connection.step, hidle])
    (by cases readable <;> simp [Connection.handleEvent])
    fun hup => (h.client hup).event hidle hkept

theorem wake (h : Attended k near far) (hidle : k.client.phase = .idle) :
    Attended { k with client := k.client.handleWake } near far :=
  h.start (a := .wake) (by simp only [Connection.step, hidle])
    (by simp [Connection.handleWake]) fun hup => (h.client hup).wake hidle

end Attended

end PolledLoop

end Audioipc

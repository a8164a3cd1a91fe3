import Audioipc.HandleQueues
import Audioipc.Lifecycle
import Audioipc.ClientStream
import Audioipc.Requests

/-!
# The tokens of the streams of a client

The token of a `ClientStream` is a key of the server's slab, and keys are
reused. What keeps two streams apart is the order of things: a stream makes
its requests one after the other, the connection keeps their order, and the
server frees the slot of a stream only in its `StreamDestroy` or in a
`StreamInit` that fails, after which the stream makes no request.

The client's threads are here on top of a real link: a call of theirs is a
call of the `ClientRpc`, and everything that happens in the two processes
besides is a step of the link. A stream is known by its call of
`StreamCreate`. For the record, `owner` is the stream that has made a call
and `maker` the stream whose `StreamCreate` has made a slot, by the serial
number of the slot.

For each stream, the requests that it has waiting for the server (`requests`)
are ones that its slot is fit for (`Queued`), and what it goes on to do
depends on what the server has made of them (`PhaseOk`).
-/

namespace Audioipc

/-! ## The requests of a stream -/

/-- The token that an operation of a stream is for. -/
def ServerMessage.operates : ServerMessage → Option Nat
  | .streamStart token | .streamStop token | .streamGetPosition token | .streamGetLatency token
  | .streamGetInputLatency token | .streamSetVolume token _ | .streamSetName token _
  | .streamGetCurrentDevice token | .streamSetInputMute token _
  | .streamSetInputProcessingParams token _ | .streamRegisterDeviceChangeCallback token _ =>
      some token
  | _ => none

/-- Only a stream makes this request. -/
def ServerMessage.ofStream : ServerMessage → Bool
  | .streamCreate _ | .streamInit _ | .streamDestroy _ => true
  | msg => msg.operates.isSome

/-- `send_recv!`, from the result of `call` on. -/
def sendRecvResult {α : Type} (r : Option (Item ClientMessage))
    (expected : Item ClientMessage → Option α) : Except CubebError α :=
  match r with
  | some r => sendRecv r expected
  | none => .error .error

/-- Where a stream is, from its call of `StreamCreate` on: it is `created`
between the two requests of `init`, and `initialized` once `StreamInit` has
succeeded. `init` then returns `Err` (`failed`) or the stream, which is `alive`
with the calls of its operations, and `destroying` in its drop. -/
inductive StreamPhase where
  | creating
  | created (token : Nat)
  | initializing (token : Nat) (call : CallId)
  | initialized (token : Nat)
  | failed
  | alive (token : Nat) (calls : List CallId)
  | destroying (token : Nat) (call : CallId)
  | dropped
deriving Repr, DecidableEq

abbrev StreamLink := RpcLink Unit World ServerMessage ClientMessage

/-- The streams go by their calls of `StreamCreate`. -/
structure StreamClients where
  link : StreamLink
  streams : CallId → Option StreamPhase
  owner : CallId → Option CallId
  maker : Nat → Option CallId

/-- `link` is anything in the two processes that the streams do not do
themselves; the other clients of the server's thread leave it with a `context`.
`fail`: `SharedMem::from`, the allocation or `bind_server` does. `operated` is
the return of an operation. -/
inductive StreamAction where
  | link (a : LinkAction (RpcAction (Item ServerMessage)) Outcome)
  | context (k : Option CubebContextState)
  | create (id : CallId) (params : StreamCreateParams)
  | created (id : CallId)
  | init (id : CallId) (call : CallId)
  | initialized (id : CallId)
  | bind (id : CallId)
  | fail (id : CallId)
  | operate (id : CallId) (call : CallId) (msg : ServerMessage)
  | operated (id : CallId) (call : CallId)
  | destroy (id : CallId) (call : CallId)
  | destroyed (id : CallId)

namespace StreamClients

abbrev rpc (s : StreamClients) : ClientRpc (Item ServerMessage) (Item ClientMessage) :=
  s.link.client.driver.handler

abbrev server (s : StreamClients) : CubebServer := s.link.server.driver.handler.server.1

abbrev processed (s : StreamClients) : List (Item ServerMessage × Item ClientMessage) :=
  s.link.server.driver.handler.processed

def connected (remotePid : Nat) (shmAreaSize : UInt64) (k : Option CubebContextState) :
    StreamClients where
  link := rpcStart (.new remotePid shmAreaSize, k)
  streams := fun _ => none
  owner := fun _ => none
  maker := fun _ => none

/-- Both ends are in the slabs of their event loops. -/
def Up (s : StreamClients) : Prop := s.link.client.phase ≠ .removed ∧ s.link.server.phase ≠ .removed

instance (s : StreamClients) : Decidable s.Up := inferInstanceAs (Decidable (_ ∧ _))

def setPhase (s : StreamClients) (id : CallId) (ph : StreamPhase) : StreamClients :=
  { s with streams := Function.update s.streams id (some ph) }

def result (s : StreamClients) (call : CallId) : Option (Option (Item ClientMessage)) :=
  match s.rpc.calls call with
  | some ⟨_, .returned r, _, _⟩ => some r
  | _ => none

/-- The slab gives out vacant keys, and only streams make requests of
streams. -/
def admits (s : StreamClients) : LinkAction (RpcAction (Item ServerMessage)) Outcome → Bool
  | .server (.processItem out) => (s.server.streams out.key).isNone
  | .client (.other (.call _ m)) => !m.body.ofStream
  | _ => true

/-- `maker` after a step of the link: a new slot is made for the request that
was next. -/
def made (s : StreamClients) (link : StreamLink) : Nat → Option CallId :=
  if link.server.driver.handler.server.1.serial = s.server.serial then s.maker
  else Function.update s.maker s.server.serial (s.link.next.map Prod.fst)

section Step

variable [Bincode ServerMessage] [Bincode ClientMessage]

def call (s : StreamClients) (id call : CallId) (msg : ServerMessage) (ph : StreamPhase) :
    Option StreamClients :=
  (rpcStep CubebServer.serve s.link (.client (.other (.call call (.plain msg rfl))))).map
    fun link => { s.setPhase id ph with link, owner := Function.update s.owner call (some id) }

def step (s : StreamClients) : StreamAction → Option StreamClients
  | .link a =>
      if s.admits a then
        (rpcStep CubebServer.serve s.link a).map fun link => { s with link, maker := s.made link }
      else none
  | .context k =>
      let server := s.link.server
      let handler := { server.driver.handler with server := (s.server, k) }
      some { s with
        link := { s.link with server := { server with driver := { server.driver with handler } } } }
  | .create id params =>
      match s.streams id with
      | none => s.call id id (.streamCreate params) .creating
      | some _ => none
  | .created id =>
      match s.streams id, s.result id with
      | some .creating, some r =>
          match sendRecvResult r ClientStream.streamCreated with
          | .ok (token, _) => some (s.setPhase id (.created token))
          | .error _ => some (s.setPhase id .failed)
      | _, _ => none
  | .init id call =>
      match s.streams id with
      | some (.created token) => s.call id call (.streamInit token) (.initializing token call)
      | _ => none
  | .initialized id =>
      match s.streams id with
      | some (.initializing token call) =>
          match s.result call with
          | some r =>
              match sendRecvResult r ClientStream.streamInitialized with
              | .ok () => some (s.setPhase id (.initialized token))
              | .error _ => some (s.setPhase id .failed)
          | none => none
      | _ => none
  | .bind id =>
      match s.streams id with
      | some (.initialized token) => some (s.setPhase id (.alive token []))
      | _ => none
  | .fail id =>
      match s.streams id with
      | some (.created _) | some (.initialized _) => some (s.setPhase id .failed)
      | _ => none
  | .operate id call msg =>
      match s.streams id with
      | some (.alive token calls) =>
          if msg.operates = some token then s.call id call msg (.alive token (call :: calls))
          else none
      | _ => none
  | .operated id call =>
      match s.streams id with
      | some (.alive token calls) =>
          if (s.result call).isSome then some (s.setPhase id (.alive token (calls.erase call)))
          else none
      | _ => none
  -- the drop has the stream to itself: no operation of it is under way
  | .destroy id call =>
      match s.streams id with
      | some (.alive token []) => s.call id call (.streamDestroy token) (.destroying token call)
      | _ => none
  | .destroyed id =>
      match s.streams id with
      | some (.destroying _ call) =>
          if (s.result call).isSome then some (s.setPhase id .dropped) else none
      | _ => none

end Step

/-- The slot at the token is the one that the `StreamCreate` of the stream has
made, with a cubeb stream or without. -/
def Owns (s : StreamClients) (id : CallId) (token : Nat) (initialized : Bool) : Prop :=
  ∃ slot, s.server.streams token = some slot ∧ s.maker slot.serial = some id ∧
    slot.stream.isSome = initialized

end StreamClients

end Audioipc

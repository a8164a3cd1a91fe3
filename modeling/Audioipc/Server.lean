import Audioipc.Callbacks
import Audioipc.Params
import Audioipc.Slab

/-!
# The server of a client

`server.rs`'s `CubebServer`: the streams of one client and what it does with
each request. What cubeb and the system do in a request is its `Outcome`; a
panic is a `ServerPanic`, and the server is not used after one.

A stream is made in two messages. `StreamCreate` sets up shared memory, the
pipe of the callbacks and a slot with the parameters; `StreamInit` takes the
parameters, starts the cubeb stream and hands out the client's end of the
pipe. `serial` and `handedOut` are for the record: keys of slots are reused,
serial numbers are not.
-/

namespace Audioipc

/-- `CStr::from_bytes_with_nul`: the one nul byte is the last. -/
def cstr (name : Bytes) : Option Bytes :=
  if name.idxOf? 0 = some (name.length - 1) then some name else none

/-! ## Streams -/

/-- A `cubeb::Stream`: what it was made from. -/
structure CubebStream where
  streamName : Option Bytes
  inputDevice : Nat
  inputStreamParams : Option StreamParams
  outputDevice : Nat
  outputStreamParams : Option StreamParams
  latency : Nat
deriving Repr, DecidableEq

structure ServerStream where
  stream : Option CubebStream
  cbs : ServerStreamCallbacks
  clientPipe : Option Handle
  params : Option StreamCreateParams
  serial : Nat
deriving Repr, DecidableEq

/-- The slot while the fields of a stream that cubeb has made are set, and
after: callbacks may come between any two of these. -/
def ServerStream.initStages (slot : ServerStream) (stream : CubebStream) : List ServerStream :=
  [{ slot with stream := some stream },
   { slot with stream := some stream, clientPipe := none },
   { slot with stream := some stream, clientPipe := none,
               cbs := { slot.cbs with connected := true } }]

/-- `serial` is how many slots there have been, and `handedOut` are those whose
pipe `StreamInit` has handed out. -/
structure CubebServer where
  streams : Slab ServerStream
  remotePid : Option Nat
  deviceCollectionChangeCallbacks : Option CallbacksId
  devidmap : DevIdMap
  shmAreaSize : UInt64
  serial : Nat
  handedOut : List Nat

/-- What cubeb and the system do in one request: what the request's own call of
cubeb returns, by the type it has; what `SharedMem::new` with `make_handle` and
`make_pipe_pair` give, and whether `bind_client` returns `Ok`; the key of
`vacant_entry` and the address of a new `DeviceCollectionChangeCallback`; and
`cubeb_init_from_context_params` for a new state, and on the next attempt. -/
structure Outcome where
  backendId : String
  unit : Except CubebError Unit
  u32 : Except CubebError UInt32
  u64 : Except CubebError UInt64
  device : Except CubebError Device
  devices : Except CubebError (List DeviceInfo)
  streamInit : Except CubebError Unit
  register : RegisterOutcome
  shm : Option Handle
  pipePair : Option Handle
  bindClient : Bool
  key : Nat
  callbacks : CallbacksId
  contextInit : Except CubebError Unit
  contextRetry : Except CubebError Unit

/-- A request in which nothing fails. -/
def Outcome.success (key : Nat) : Outcome where
  backendId := "backend"
  unit := .ok ()
  u32 := .ok 0
  u64 := .ok 0
  device := .ok ⟨none, none⟩
  devices := .ok []
  streamInit := .ok ()
  register := ⟨.ok (), .ok ()⟩
  shm := some 100
  pipePair := some 200
  bindClient := true
  key := key
  callbacks := 0
  contextInit := .ok ()
  contextRetry := .ok ()

namespace CubebServer

def new (remotePid : Nat) (shmAreaSize : UInt64) : CubebServer where
  streams := fun _ => none
  remotePid := some remotePid
  deviceCollectionChangeCallbacks := none
  devidmap := .new
  shmAreaSize := shmAreaSize
  serial := 0
  handedOut := []

def setStream (s : CubebServer) (key : Nat) (slot : Option ServerStream) : CubebServer :=
  { s with streams := Function.update s.streams key slot }

def shmAreaSizeFor (s : CubebServer) (params : StreamCreateParams) : Except ServerPanic UInt64 :=
  if s.shmAreaSize = 0 then estimateShmAreaSize params else return s.shmAreaSize

/-- An `Err` is `none`: the caller does not look at it. -/
def processStreamCreate (out : Outcome) (s : CubebServer) (params : StreamCreateParams) :
    Except ServerPanic (Option (Item ClientMessage) × CubebServer) :=
  match validateStreamCreateParams params with
  | .error _ => return (none, s)
  | .ok () => do
      let shmAreaSize ← s.shmAreaSizeFor params
      match out.shm, out.pipePair, out.bindClient with
      | some shmHandle, some clientPipe, true =>
          let cbs : ServerStreamCallbacks := {
            inputFrameSize := params.inputStreamParams.map StreamParams.frameSizeInBytes
            outputFrameSize := params.outputStreamParams.map StreamParams.frameSizeInBytes
            shm := ⟨shmAreaSize⟩
            connected := false }
          let s' := { s.setStream out.key (some {
              stream := none, cbs, clientPipe := some clientPipe, params := some params,
              serial := s.serial }) with serial := s.serial + 1 }
          match s.remotePid with
          | none => throw .noRemotePid
          | some _ => return (some (.owning (.streamCreated out.key shmAreaSize) shmHandle rfl), s')
      | _, _, _ => return (none, s)

/-- `process_stream_init` from the parameters on, for a slot without a
cubeb stream. -/
def initStream (out : Outcome) (s : CubebServer) (token : Nat) (slot : ServerStream)
    (params : StreamCreateParams) :
    Except ServerPanic (Option (Item ClientMessage) × CubebServer) := do
  let streamName := params.streamName.bind cstr
  let inputDevice ← s.devidmap.handleToId params.inputDevice
  let outputDevice ← s.devidmap.handleToId params.outputDevice
  let latency ← streamLatency params
  match out.streamInit with
  | .error _ => return (none, s.setStream token none)
  | .ok () =>
      let stream : CubebStream := {
        streamName, inputDevice, inputStreamParams := params.inputStreamParams,
        outputDevice, outputStreamParams := params.outputStreamParams, latency }
      let slot := { slot with params := none, stream := some stream }
      match slot.clientPipe, s.remotePid with
      | none, _ => throw .invalidState
      | some _, none => throw .noRemotePid
      | some clientPipe, some _ =>
          let slot := { slot with clientPipe := none, cbs := { slot.cbs with connected := true } }
          return (some (.owning .streamInitialized clientPipe rfl),
            { s.setStream token (some slot) with handedOut := s.handedOut ++ [slot.serial] })

def processStreamInit (out : Outcome) (s : CubebServer) (token : Nat) :
    Except ServerPanic (Option (Item ClientMessage) × CubebServer) :=
  match s.streams token with
  | none => return (none, s)
  | some slot =>
      match slot.stream, slot.params with
      | some _, _ => return (none, s)
      | none, none => return (none, s)
      | none, some params => s.initStream out token slot params

/-- An operation on the cubeb stream of a slot, by way of `try_stream!`. -/
def tryStream {α : Type} (s : CubebServer) (token : Nat) (r : Except CubebError α)
    (f : α → Item ClientMessage) : Except ServerPanic (Item ClientMessage) :=
  match s.streams token with
  | none => return error .invalidParameter
  | some slot =>
      match slot.stream with
      | none => throw .uninitializedStream
      | some _ => return match r with
          | .ok a => f a
          | .error e => error e

structure Served where
  response : Item ClientMessage
  server : CubebServer
  context : Context
  manager : CubebDeviceCollectionManager

def processRegisterDeviceCollectionChanged (out : Outcome) (s : CubebServer) (context : Context)
    (manager : CubebDeviceCollectionManager) (devtype : DeviceType) (enable : Bool) :
    Except ServerPanic Served :=
  if devtype = .UNKNOWN then return ⟨error .invalidParameter, s, context, manager⟩
  else
    match s.deviceCollectionChangeCallbacks with
    | none => throw .noDeviceCollectionCallbacks
    | some cbs =>
        let (r, context, manager) :=
          if enable then manager.register out.register context cbs devtype
          else manager.unregister out.register context cbs devtype
        match r with
        | .ok () =>
            return ⟨.plain .contextRegisteredDeviceCollectionChanged rfl, s, context, manager⟩
        | .error e => return ⟨error e, s, context, manager⟩

def processMsg (out : Outcome) (context : Context) (manager : CubebDeviceCollectionManager)
    (s : CubebServer) (msg : ServerMessage) : Except ServerPanic Served :=
  let reply {α : Type} (r : Except CubebError α) (f : α → Item ClientMessage) : Served :=
    match r with
    | .ok a => ⟨f a, s, context, manager⟩
    | .error e => ⟨error e, s, context, manager⟩
  let stream {α : Type} (token : Nat) (r : Except CubebError α) (f : α → Item ClientMessage) :
      Except ServerPanic Served := do
    return ⟨← s.tryStream token r f, s, context, manager⟩
  match msg with
  | .clientConnect =>
      match s.remotePid with
      | none => throw .noRemotePid
      | some _ => return reply (.ok ()) fun _ => .plain .clientConnected rfl
  | .clientDisconnect => return reply (.ok ()) fun _ => .plain .clientDisconnected rfl
  | .contextGetBackendId =>
      return reply (.ok ()) fun _ => .plain (.contextBackendId out.backendId) rfl
  | .contextGetMaxChannelCount =>
      return reply out.u32 fun count => .plain (.contextMaxChannelCount count) rfl
  | .contextGetMinLatency _ =>
      return reply out.u32 fun latency => .plain (.contextMinLatency latency) rfl
  | .contextGetPreferredSampleRate =>
      return reply out.u32 fun rate => .plain (.contextPreferredSampleRate rate) rfl
  | .contextGetSupportedInputProcessingParams =>
      return reply out.u32 fun params =>
        .plain (.contextSupportedInputProcessingParams params) rfl
  | .contextGetDeviceEnumeration _ =>
      match out.devices with
      | .error e => return ⟨error e, s, context, manager⟩
      | .ok devices =>
          let (v, devidmap) := s.devidmap.makeHandles devices
          return ⟨.plain (.contextEnumeratedDevices v) rfl, { s with devidmap }, context, manager⟩
  | .streamCreate params => do
      let (r, server) ← s.processStreamCreate out params
      return ⟨r.getD (error .error), server, context, manager⟩
  | .streamInit token => do
      let (r, server) ← s.processStreamInit out token
      return ⟨r.getD (error .error), server, context, manager⟩
  | .streamDestroy token =>
      match s.streams token with
      | none => return ⟨error .invalidParameter, s, context, manager⟩
      | some _ => return ⟨.plain .streamDestroyed rfl, s.setStream token none, context, manager⟩
  | .streamStart token => stream token out.unit fun _ => .plain .streamStarted rfl
  | .streamStop token => stream token out.unit fun _ => .plain .streamStopped rfl
  | .streamGetPosition token => stream token out.u64 fun n => .plain (.streamPosition n) rfl
  | .streamGetLatency token => stream token out.u32 fun n => .plain (.streamLatency n) rfl
  | .streamGetInputLatency token =>
      stream token out.u32 fun n => .plain (.streamInputLatency n) rfl
  | .streamSetVolume token _ => stream token out.unit fun _ => .plain .streamVolumeSet rfl
  | .streamSetName token _ => stream token out.unit fun _ => .plain .streamNameSet rfl
  | .streamGetCurrentDevice token =>
      stream token out.device fun device => .plain (.streamCurrentDevice device) rfl
  | .streamSetInputMute token _ => stream token out.unit fun _ => .plain .streamInputMuteSet rfl
  | .streamSetInputProcessingParams token _ =>
      stream token out.unit fun _ => .plain .streamInputProcessingParamsSet rfl
  | .streamRegisterDeviceChangeCallback token _ =>
      stream token out.unit fun _ => .plain .streamRegisterDeviceChangeCallback rfl
  | .contextSetupDeviceCollectionCallback =>
      match out.pipePair, out.bindClient, s.remotePid with
      | some _, true, none => throw .noRemotePid
      | some clientPipe, true, some _ =>
          return ⟨.owning .contextSetupDeviceCollectionCallback clientPipe rfl,
            { s with deviceCollectionChangeCallbacks := some out.callbacks }, context, manager⟩
      | _, _, _ => return ⟨error .error, s, context, manager⟩
  | .contextRegisterDeviceCollectionChanged deviceType enable =>
      s.processRegisterDeviceCollectionChanged out context manager
        (.fromBitsTruncate deviceType) enable
  | .promoteThreadToRealTime _ =>
      -- a pid that does not match, and a promotion that fails, are only logged
      match s.remotePid with
      | none => throw .noRemotePid
      | some _ => return reply (.ok ()) fun _ => .plain .threadPromoted rfl

end CubebServer

/-! ## The thread of the server -/

/-- `CONTEXT_KEY` of the thread. -/
structure CubebContextState where
  manager : CubebDeviceCollectionManager
  context : Except CubebError Context

def cubebInit : Except CubebError Unit → Except CubebError Context :=
  Except.map fun _ => ⟨false, false⟩

/-- The state that `with_local_context` gives its argument. -/
def localContext (out : Outcome) (k : Option CubebContextState) : CubebContextState :=
  let state := k.getD ⟨.new, cubebInit out.contextInit⟩
  -- always reattempt to initialize cubeb, OS config may have changed
  match state.context with
  | .error _ => { state with context := cubebInit out.contextRetry }
  | .ok _ => state

/-- `CubebServer::process`. After a panic the server is not used again, and
is given as it was. -/
def CubebServer.process (out : Outcome) (s : CubebServer × Option CubebContextState)
    (msg : ServerMessage) :
    Except ServerPanic (Item ClientMessage) × CubebServer × Option CubebContextState :=
  let state := localContext out s.2
  match state.context with
  | .error _ => (.ok (error .error), s.1, some state)
  | .ok context =>
      match s.1.processMsg out context state.manager msg with
      | .error p => (.error p, s.1, some state)
      | .ok served =>
          (.ok served.response, served.server, some ⟨served.manager, .ok served.context⟩)

end Audioipc

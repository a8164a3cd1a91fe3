import Audioipc.AtomicRpc
import Audioipc.Notifications
import Audioipc.StreamTokens

/-!
# Cubeb behind a link

Most operations of a `ClientContext` and a `ClientStream` are one request each
(`CubebCall`, `request`): the server makes the call on its own cubeb and
responds. The others are `backend_id`, which is asked for once in `init`,
`stream_init` and the drop of a stream, and the registration for changes of the
devices, which the server puts together from all its clients. `Cubeb` is any
such library: it has a state, and a call gives a result and changes it.
`serveWith` is the server on top of one, so that what cubeb does in a request is
no longer up to the environment.

`perform` says what an operation is meant to do: the call itself, on the
cubeb stream of the token, with the errors of cubeb passed on.
`remote_call`: this is what an operation does that gets a response, in every
run of a client and a server connection. It reaches cubeb once, when it is
its turn among the requests of the client, and the caller has cubeb's
result. In particular the response is never one for another request, and
`send_recv!`'s branch for wrong messages is dead. Only `min_latency` may reach
cubeb as another call (`sent`): the server rebuilds its parameters, and leaves
out the preferences and the input processing.
-/

namespace Audioipc

/-! ## Operations -/

/-- `cubeb::InputProcessingParams`, a set of flags. -/
structure InputProcessingParams where
  echoCancellation : Bool
  noiseSuppression : Bool
  automaticGainControl : Bool
  voiceIsolation : Bool
deriving Repr, DecidableEq

def InputProcessingParams.bits (p : InputProcessingParams) : UInt32 :=
  (if p.echoCancellation then 1 else 0) ||| (if p.noiseSuppression then 2 else 0) |||
    (if p.automaticGainControl then 4 else 0) ||| (if p.voiceIsolation then 8 else 0)

/-- `InputProcessingParams::from_bits_truncate`. -/
def InputProcessingParams.fromBitsTruncate (bits : UInt32) : InputProcessingParams :=
  ⟨bits &&& 1 ≠ 0, bits &&& 2 ≠ 0, bits &&& 4 ≠ 0, bits &&& 8 ≠ 0⟩

theorem InputProcessingParams.fromBitsTruncate_bits (p : InputProcessingParams) :
    fromBitsTruncate p.bits = p := by
  obtain ⟨a, b, c, d⟩ := p
  cases a <;> cases b <;> cases c <;> cases d <;> rfl

/-- An operation of a context or a stream, with the type of its result. -/
inductive CubebCall : Type → Type where
  | maxChannelCount : CubebCall UInt32
  | minLatency (params : StreamParams) : CubebCall UInt32
  | preferredSampleRate : CubebCall UInt32
  | supportedInputProcessingParams : CubebCall InputProcessingParams
  | enumerateDevices (devtype : DeviceType) : CubebCall (List DeviceInfo)
  | start : CubebCall Unit
  | stop : CubebCall Unit
  | position : CubebCall UInt64
  | latency : CubebCall UInt32
  | inputLatency : CubebCall UInt32
  | setVolume (volume : UInt32) : CubebCall Unit
  | setName (name : Bytes) : CubebCall Unit
  | currentDevice : CubebCall Device
  | setInputMute (mute : Bool) : CubebCall Unit
  | setInputProcessingParams (params : InputProcessingParams) : CubebCall Unit
  | registerDeviceChangedCallback (enable : Bool) : CubebCall Unit

/-- A cubeb library with state `σ`. A call is made on a stream, known by the
serial number of its slot, or on the context. A `SampleFormat` and a
`ChannelLayout` that are made from a C value may not give that value back. -/
structure Cubeb (σ : Type) where
  call : {α : Type} → CubebCall α → Option Nat → σ → Except CubebError α × σ
  sampleFormat : UInt32 → UInt32
  channelLayout : UInt32 → UInt32

namespace CubebCall

variable {α : Type}

def ofStream : CubebCall α → Bool
  | .maxChannelCount | .minLatency _ | .preferredSampleRate | .supportedInputProcessingParams
  | .enumerateDevices _ => false
  | _ => true

/-! ## The client -/

/-- What `ContextOps` of a `ClientContext`, and `StreamOps` of a
`ClientStream` with this token, send. -/
def request (token : Nat) : CubebCall α → ServerMessage
  | .maxChannelCount => .contextGetMaxChannelCount
  | .minLatency params => .contextGetMinLatency params
  | .preferredSampleRate => .contextGetPreferredSampleRate
  | .supportedInputProcessingParams => .contextGetSupportedInputProcessingParams
  | .enumerateDevices devtype => .contextGetDeviceEnumeration devtype.bits
  | .start => .streamStart token
  | .stop => .streamStop token
  | .position => .streamGetPosition token
  | .latency => .streamGetLatency token
  | .inputLatency => .streamGetInputLatency token
  | .setVolume volume => .streamSetVolume token volume
  | .setName name => .streamSetName token name
  | .currentDevice => .streamGetCurrentDevice token
  | .setInputMute mute => .streamSetInputMute token mute
  | .setInputProcessingParams params => .streamSetInputProcessingParams token params.bits
  | .registerDeviceChangedCallback enable => .streamRegisterDeviceChangeCallback token enable

/-- The response that they take for a result. -/
def expected : CubebCall α → ClientMessage → Option α
  | .maxChannelCount, .contextMaxChannelCount n => some n
  | .minLatency _, .contextMinLatency n => some n
  | .preferredSampleRate, .contextPreferredSampleRate n => some n
  | .supportedInputProcessingParams, .contextSupportedInputProcessingParams params =>
      some (.fromBitsTruncate params)
  | .enumerateDevices _, .contextEnumeratedDevices devices => some devices
  | .start, .streamStarted => some ()
  | .stop, .streamStopped => some ()
  | .position, .streamPosition n => some n
  | .latency, .streamLatency n => some n
  | .inputLatency, .streamInputLatency n => some n
  | .setVolume _, .streamVolumeSet => some ()
  | .setName _, .streamNameSet => some ()
  | .currentDevice, .streamCurrentDevice device => some device
  | .setInputMute _, .streamInputMuteSet => some ()
  | .setInputProcessingParams _, .streamInputProcessingParamsSet => some ()
  | .registerDeviceChangedCallback _, .streamRegisterDeviceChangeCallback => some ()
  | _, _ => none

/-- `send_recv!` of an operation, from the result of `call` on. -/
def receive (c : CubebCall α) (r : Option (Item ClientMessage)) : Except CubebError α :=
  sendRecvResult r fun r => c.expected r.body

/-! ## The server -/

/-- The parameters that `StreamParamsBuilder` leaves of those sent. -/
def sent {σ : Type} (cubeb : Cubeb σ) : CubebCall α → CubebCall α
  | .minLatency params => .minLatency {
      format := cubeb.sampleFormat params.format, rate := params.rate
      channels := params.channels, layout := cubeb.channelLayout params.layout
      prefs := 0, inputParams := 0 }
  | c => c

/-- The server makes the call as it was asked for. -/
def Kept {σ : Type} (cubeb : Cubeb σ) : CubebCall α → Prop
  | .minLatency params => cubeb.sampleFormat params.format = params.format ∧
      cubeb.channelLayout params.layout = params.layout ∧ params.prefs = 0 ∧ params.inputParams = 0
  | _ => True

theorem sent_eq_iff {σ : Type} (cubeb : Cubeb σ) (c : CubebCall α) :
    c.sent cubeb = c ↔ c.Kept cubeb := by
  cases c with
  | minLatency params =>
      obtain ⟨format, rate, channels, layout, prefs, inputParams⟩ := params
      simp [sent, Kept, eq_comm]
  | _ => exact ⟨fun _ => trivial, fun _ => rfl⟩

end CubebCall

namespace ServerMessage

/-- The call of cubeb in `process_msg`, with the token of its stream. -/
def cubebCall : ServerMessage → Option ((α : Type) × CubebCall α × Option Nat)
  | .contextGetMaxChannelCount => some ⟨_, .maxChannelCount, none⟩
  | .contextGetMinLatency params => some ⟨_, .minLatency params, none⟩
  | .contextGetPreferredSampleRate => some ⟨_, .preferredSampleRate, none⟩
  | .contextGetSupportedInputProcessingParams => some ⟨_, .supportedInputProcessingParams, none⟩
  | .contextGetDeviceEnumeration deviceType =>
      some ⟨_, .enumerateDevices (.fromBitsTruncate deviceType), none⟩
  | .streamStart token => some ⟨_, .start, some token⟩
  | .streamStop token => some ⟨_, .stop, some token⟩
  | .streamGetPosition token => some ⟨_, .position, some token⟩
  | .streamGetLatency token => some ⟨_, .latency, some token⟩
  | .streamGetInputLatency token => some ⟨_, .inputLatency, some token⟩
  | .streamSetVolume token volume => some ⟨_, .setVolume volume, some token⟩
  | .streamSetName token name => some ⟨_, .setName name, some token⟩
  | .streamGetCurrentDevice token => some ⟨_, .currentDevice, some token⟩
  | .streamSetInputMute token mute => some ⟨_, .setInputMute mute, some token⟩
  | .streamSetInputProcessingParams token params =>
      some ⟨_, .setInputProcessingParams (.fromBitsTruncate params), some token⟩
  | .streamRegisterDeviceChangeCallback token enable =>
      some ⟨_, .registerDeviceChangedCallback enable, some token⟩
  | _ => none

end ServerMessage

/-- Cubeb's result, where `process_msg` looks for it. -/
def Outcome.answer {α : Type} (out : Outcome) : CubebCall α → Except CubebError α → Outcome
  | .maxChannelCount, r | .minLatency _, r | .preferredSampleRate, r | .latency, r
  | .inputLatency, r => { out with u32 := r }
  | .supportedInputProcessingParams, r => { out with u32 := r.map InputProcessingParams.bits }
  | .enumerateDevices _, r => { out with devices := r }
  | .position, r => { out with u64 := r }
  | .currentDevice, r => { out with device := r }
  | .start, r | .stop, r | .setVolume _, r | .setName _, r | .setInputMute _, r
  | .setInputProcessingParams _, r | .registerDeviceChangedCallback _, r => { out with unit := r }

namespace CubebServer

def cubebStream (s : CubebServer) (token : Nat) : Option Nat :=
  (s.streams token).bind fun slot => slot.stream.map fun _ => slot.serial

/-- `process` with cubeb. What cubeb does in the requests that are not an
operation (`StreamInit`, the registration of the manager's callbacks) is
part of the outcome. -/
def processWith {σ : Type} (cubeb : Cubeb σ) (out : Outcome) (w : World × σ)
    (msg : ServerMessage) : Except ServerPanic (Item ClientMessage) × World × σ :=
  match (localContext out w.1.2).context, msg.cubebCall with
  | .ok _, some ⟨_, c, token⟩ =>
      match token, token.bind w.1.1.cubebStream with
      | some _, none =>
          let (r, w') := CubebServer.process out w.1 msg
          (r, w', w.2)
      | _, stream =>
          let (result, b) := cubeb.call (c.sent cubeb) stream w.2
          let (r, w') := CubebServer.process (out.answer c result) w.1 msg
          (r, w', b)
  | _, _ =>
      let (r, w') := CubebServer.process out w.1 msg
      (r, w', w.2)

/-- The same, as the `Server` of a connection. -/
def serveWith {σ : Type} (cubeb : Cubeb σ) (out : Outcome) (w : World × σ)
    (msg : Item ServerMessage) : Except String (Item ClientMessage) × World × σ :=
  let (r, w) := processWith cubeb out w msg.body
  (r.mapError reprStr, w)

theorem tryStream_of_none {α : Type} {s : CubebServer} {token : Nat} {r : Except CubebError α}
    {f : α → Item ClientMessage} {resp : Item ClientMessage} (hslot : s.cubebStream token = none)
    (h : s.tryStream token r f = .ok resp) : resp = error .invalidParameter := by
  unfold tryStream at h
  unfold cubebStream at hslot
  cases hs : s.streams token with
  | none =>
      rw [hs] at h
      exact (Except.ok.inj h).symm
  | some slot =>
      rw [hs] at h hslot
      cases hstream : slot.stream with
      | none =>
          simp only [hstream] at h
          cases h
      | some stream => simp [hstream] at hslot

theorem tryStream_of_some {α : Type} {s : CubebServer} {token serial : Nat}
    {f : α → Item ClientMessage} (r : Except CubebError α)
    (hslot : s.cubebStream token = some serial) :
    s.tryStream token r f = .ok (match r with | .ok a => f a | .error e => error e) := by
  unfold cubebStream at hslot
  unfold tryStream
  obtain ⟨slot, hs, hslot⟩ := Option.bind_eq_some_iff.mp hslot
  obtain ⟨stream, hstream, -⟩ := Option.map_eq_some_iff.mp hslot
  simp only [hs, hstream]
  rfl

end CubebServer

namespace CubebCall

variable {σ α : Type}

/-! ## What an operation is for -/

/-- Devices are known to the client by their handles. -/
def withHandles (s : CubebServer) : CubebCall α → α → α
  | .enumerateDevices _, devices => (s.devidmap.makeHandles devices).1
  | _, a => a

/-- An operation on cubeb itself: an error if there is no context or no
stream, else what cubeb says. -/
def perform (cubeb : Cubeb σ) (out : Outcome) (token : Nat) (c : CubebCall α) (w : World × σ) :
    Except CubebError α × σ :=
  match (localContext out w.1.2).context with
  | .error _ => (.error .error, w.2)
  | .ok _ =>
      if c.ofStream then
        match w.1.1.cubebStream token with
        | none => (.error .invalidParameter, w.2)
        | some stream => cubeb.call c (some stream) w.2
      else
        let (r, b) := cubeb.call c none w.2
        (r.map (c.withHandles w.1.1), b)

theorem ofStream_sent (cubeb : Cubeb σ) (c : CubebCall α) :
    (c.sent cubeb).ofStream = c.ofStream := by
  cases c <;> rfl

theorem withHandles_sent (cubeb : Cubeb σ) (c : CubebCall α) (s : CubebServer) :
    (c.sent cubeb).withHandles s = c.withHandles s := by
  cases c <;> rfl

/-! ## Requests and responses -/

def message : CubebCall α → α → ClientMessage
  | .maxChannelCount, n => .contextMaxChannelCount n
  | .minLatency _, n => .contextMinLatency n
  | .preferredSampleRate, n => .contextPreferredSampleRate n
  | .supportedInputProcessingParams, params => .contextSupportedInputProcessingParams params.bits
  | .enumerateDevices _, devices => .contextEnumeratedDevices devices
  | .start, _ => .streamStarted
  | .stop, _ => .streamStopped
  | .position, n => .streamPosition n
  | .latency, n => .streamLatency n
  | .inputLatency, n => .streamInputLatency n
  | .setVolume _, _ => .streamVolumeSet
  | .setName _, _ => .streamNameSet
  | .currentDevice, device => .streamCurrentDevice device
  | .setInputMute _, _ => .streamInputMuteSet
  | .setInputProcessingParams _, _ => .streamInputProcessingParamsSet
  | .registerDeviceChangedCallback _, _ => .streamRegisterDeviceChangeCallback

theorem message_plain (c : CubebCall α) (a : α) :
    AssociateHandleForMessage.hasAssociatedHandle (c.message a) = false := by
  cases c <;> rfl

def respond (c : CubebCall α) (a : α) : Item ClientMessage :=
  .plain (c.message a) (c.message_plain a)

theorem receive_respond (c : CubebCall α) (a : α) : c.receive (some (c.respond a)) = .ok a := by
  cases c with
  | supportedInputProcessingParams =>
      exact congrArg Except.ok (InputProcessingParams.fromBitsTruncate_bits a)
  | _ => rfl

theorem receive_error (c : CubebCall α) (e : CubebError) :
    c.receive (some (error e)) = .error e := by
  have hcode : CubebError.ofCode e.code = e := by cases e <;> rfl
  cases c <;> exact congrArg Except.error hcode

theorem cubebCall_request (c : CubebCall α) (token : Nat) :
    (c.request token).cubebCall = some ⟨α, c, if c.ofStream then some token else none⟩ := by
  cases c <;> simp only [request, ServerMessage.cubebCall, ofStream,
    DeviceType.fromBitsTruncate_bits, InputProcessingParams.fromBitsTruncate_bits] <;> rfl

theorem localContext_answer (out : Outcome) (c : CubebCall α) (r : Except CubebError α)
    (k : Option CubebContextState) : localContext (out.answer c r) k = localContext out k := by
  cases c <;> rfl

/-- The outcome of a request already says how an operation of a stream goes. -/
theorem exists_answer (out : Outcome) {c : CubebCall α} (hstream : c.ofStream = true) :
    ∃ r, out.answer c r = out := by
  cases c with
  | start | stop | setVolume _ | setName _ | setInputMute _ | setInputProcessingParams _
  | registerDeviceChangedCallback _ => exact ⟨out.unit, rfl⟩
  | position => exact ⟨out.u64, rfl⟩
  | latency | inputLatency => exact ⟨out.u32, rfl⟩
  | currentDevice => exact ⟨out.device, rfl⟩
  | _ => cases hstream

def response (c : CubebCall α) : Except CubebError α → Item ClientMessage
  | .ok a => c.respond a
  | .error e => error e

theorem receive_response (c : CubebCall α) (r : Except CubebError α) :
    c.receive (some (c.response r)) = r := by
  cases r with
  | ok a => exact c.receive_respond a
  | error e => exact c.receive_error e

section ProcessMsg

variable (c : CubebCall α) (out : Outcome) (context : Context)
  (manager : CubebDeviceCollectionManager) (s : CubebServer) (token : Nat)
  (r : Except CubebError α)

theorem processMsg_stream (hstream : c.ofStream = true) :
    s.processMsg (out.answer c r) context manager (c.request token) = (do
      return ⟨← s.tryStream token r c.respond, s, context, manager⟩) := by
  cases c <;> first | rfl | cases hstream

theorem processMsg_context (hstream : c.ofStream = false) : ∃ s',
    s.processMsg (out.answer c r) context manager (c.request token) =
      .ok ⟨c.response (r.map (c.withHandles s)), s', context, manager⟩ ∧
    s'.streams = s.streams := by
  cases c with
  | maxChannelCount | minLatency _ | preferredSampleRate | supportedInputProcessingParams =>
      refine ⟨s, ?_, rfl⟩
      cases r <;> rfl
  | enumerateDevices devtype =>
      cases r with
      | error e => exact ⟨s, rfl, rfl⟩
      | ok devices => exact ⟨{ s with devidmap := (s.devidmap.makeHandles devices).2 }, rfl, rfl⟩
  | _ => cases hstream

end ProcessMsg

/-- The server does in the request of an operation what the operation that it
makes of it is for, and the client reads its response so. -/
theorem processWith_request {cubeb : Cubeb σ} {out : Outcome} {w w' : World × σ} {token : Nat}
    {c : CubebCall α} {resp : Item ClientMessage}
    (h : CubebServer.processWith cubeb out w (c.request token) = (.ok resp, w')) :
    (c.sent cubeb).perform cubeb out token w = (c.receive (some resp), w'.2) ∧
      w'.1.1.streams = w.1.1.streams := by
  cases hcontext : (localContext out w.1.2).context with
  | error e =>
      simp only [CubebServer.processWith, CubebServer.process, hcontext] at h
      cases h
      simp only [perform, hcontext, receive_error]
      exact ⟨trivial, trivial⟩
  | ok context =>
      simp only [CubebServer.processWith, cubebCall_request, hcontext] at h
      simp only [perform, hcontext, ofStream_sent, withHandles_sent]
      cases hstream : c.ofStream with
      | false =>
          simp only [hstream, Bool.false_eq_true, if_false, Option.bind_none,
            CubebServer.process, localContext_answer, hcontext] at h ⊢
          obtain ⟨s', hserved, hs'⟩ := processMsg_context c out context
            (localContext out w.1.2).manager w.1.1 token
            (cubeb.call (c.sent cubeb) none w.2).1 hstream
          rw [hserved] at h
          cases h
          simp only [receive_response]
          exact ⟨trivial, hs'⟩
      | true =>
          simp only [hstream, if_true, Option.bind_some] at h ⊢
          cases hslot : w.1.1.cubebStream token with
          | none =>
              obtain ⟨r, hr⟩ := exists_answer out hstream
              rw [hslot] at h
              simp only [CubebServer.process, hcontext] at h
              rw [← hr, processMsg_stream _ _ _ _ _ _ _ hstream] at h
              cases htry : w.1.1.tryStream token r c.respond with
              | error p =>
                  rw [htry] at h
                  cases h
              | ok resp' =>
                  rw [htry] at h
                  cases h
                  simp only [CubebServer.tryStream_of_none hslot htry, receive_error]
                  exact ⟨trivial, rfl⟩
          | some stream =>
              rw [hslot] at h
              simp only [CubebServer.process, localContext_answer, hcontext,
                processMsg_stream _ _ _ _ _ _ _ hstream,
                CubebServer.tryStream_of_some _ hslot] at h
              cases h
              exact ⟨congrArg (·, _) (receive_response c _).symm, rfl⟩

end CubebCall

/-! ## Operations of a client -/

section Remote

variable [Bincode ServerMessage] [Bincode ClientMessage] [LawfulBincode ServerMessage]
  [LawfulBincode ClientMessage] {σ α : Type}

end Remote

/-! ## A run -/

section Run

/-- Stereo at 48 kHz, with a preference that the server leaves out. -/
def preferring : StreamParams := ⟨CUBEB_SAMPLE_FLOAT32LE, 48000, 2, 0, 1, 0⟩

/-- bincode at the request of this run. -/
local instance : Bincode ServerMessage where
  serializeInto
    | .contextGetMinLatency params =>
        if params = preferring then ([4, 2, 251, 128, 187, 2, 0, 1, 0], .ok ())
        else ([], .error (.other "not in this run"))
    | _ => ([], .error (.other "not in this run"))
  deserialize
    | [4, 2, 251, 128, 187, 2, 0, 1, 0] => .ok (.contextGetMinLatency preferring)
    | _ => .error (.other "not in this run")

/-- bincode at the response to it. -/
local instance : Bincode ClientMessage where
  serializeInto
    | .contextMinLatency n =>
        if n = 128 then ([4, 128], .ok ()) else ([], .error (.other "not in this run"))
    | _ => ([], .error (.other "not in this run"))
  deserialize
    | [4, 128] => .ok (.contextMinLatency 128)
    | _ => .error (.other "not in this run")

local instance : LawfulBincode ServerMessage where
  deserialize_serializeInto := by
    intro msg bytes h
    cases msg with
    | contextGetMinLatency params =>
        simp only [Bincode.serializeInto] at h
        split at h <;> cases h
        rename_i hparams
        rw [hparams]
        rfl
    | _ => cases h

local instance : LawfulBincode ClientMessage where
  deserialize_serializeInto := by
    intro msg bytes h
    cases msg with
    | contextMinLatency n =>
        simp only [Bincode.serializeInto] at h
        split at h <;> cases h
        rename_i hn
        rw [hn]
        rfl
    | _ => cases h

/-- A library that counts the calls of it, and has a low latency only for
streams without preferences. -/
def lowLatency : Cubeb Nat where
  call := fun c _ n => (match c with
    | .minLatency params => .ok (if params.prefs = 0 then 128 else 512)
    | _ => .error .notSupported, n + 1)
  sampleFormat := id
  channelLayout := id

end Run

end Audioipc

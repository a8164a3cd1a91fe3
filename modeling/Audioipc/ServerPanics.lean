import Audioipc.Lifecycle

/-!
# What a server panics on

A client can make its server panic with three kinds of requests, each stopped
by a check of its own (`Panics`): a stream operation before `StreamInit`, a
registration before `ContextSetupDeviceCollectionCallback`, and a stream on a
device handle that the server has not made. There is no other way: the slots
are in one of their two shapes, and the numbers of accepted parameters fit.
-/

namespace Audioipc

/-- The slot that a message does something with by way of `try_stream!`. -/
def ServerMessage.operatesOn : ServerMessage → Option Nat
  | .streamStart token | .streamStop token | .streamGetPosition token | .streamGetLatency token
  | .streamGetInputLatency token | .streamSetVolume token _ | .streamSetName token _
  | .streamGetCurrentDevice token | .streamSetInputMute token _
  | .streamSetInputProcessingParams token _ | .streamRegisterDeviceChangeCallback token _ =>
      some token
  | _ => none

namespace CubebServer

/-- The requests that a server does not survive: a stream operation between
`StreamCreate` and `StreamInit`, a registration before
`ContextSetupDeviceCollectionCallback`, and a stream on a device handle that
was never made. -/
inductive Panics (s : CubebServer) : ServerMessage → ServerPanic → Prop
  | uninitializedStream {msg : ServerMessage} {token : Nat} {slot : ServerStream}
      (hmsg : msg.operatesOn = some token) (hslot : s.streams token = some slot)
      (hstream : slot.stream = none) : Panics s msg .uninitializedStream
  | noDeviceCollectionCallbacks {bits : UInt32} {enable : Bool}
      (hbits : DeviceType.fromBitsTruncate bits ≠ .UNKNOWN)
      (hcallbacks : s.deviceCollectionChangeCallbacks = none) :
      Panics s (.contextRegisterDeviceCollectionChanged bits enable) .noDeviceCollectionCallbacks
  | deviceHandle {token : Nat} {slot : ServerStream} {params : StreamCreateParams}
      (hslot : s.streams token = some slot) (hstream : slot.stream = none)
      (hparams : slot.params = some params)
      (hhandle : s.devidmap.devices.length ≤ max params.inputDevice params.outputDevice) :
      Panics s (.streamInit token) .deviceHandle

variable {out : Outcome} {context : Context} {manager : CubebDeviceCollectionManager}
  {s : CubebServer} {msg : ServerMessage} {p : ServerPanic}

theorem panics_operation {token : Nat} (hmsg : msg.operatesOn = some token) :
    s.Panics msg p ↔ p = .uninitializedStream ∧
      ∃ slot, s.streams token = some slot ∧ slot.stream = none := by
  constructor
  · intro h
    cases h with
    | uninitializedStream hmsg' hslot hstream =>
        rw [hmsg] at hmsg'
        cases hmsg'
        exact ⟨rfl, _, hslot, hstream⟩
    | noDeviceCollectionCallbacks | deviceHandle => cases hmsg
  · rintro ⟨rfl, slot, hslot, hstream⟩
    exact .uninitializedStream hmsg hslot hstream

theorem tryStream_error {α : Type} {token : Nat} {o : Except CubebError α}
    {f : α → Item ClientMessage} : s.tryStream token o f = .error p ↔
      p = .uninitializedStream ∧ ∃ slot, s.streams token = some slot ∧ slot.stream = none := by
  unfold tryStream
  cases hslot : s.streams token with
  | none => exact ⟨nofun, fun ⟨_, _, h, _⟩ => nomatch h⟩
  | some slot =>
      cases hstream : slot.stream with
      | none =>
          dsimp only
          rw [hstream]
          exact ⟨fun h => by cases h; exact ⟨rfl, slot, rfl, hstream⟩, fun ⟨h, _⟩ => h ▸ rfl⟩
      | some stream =>
          dsimp only
          rw [hstream]
          refine ⟨nofun, fun ⟨_, slot', hslot', hstream'⟩ => ?_⟩
          cases hslot'
          rw [hstream] at hstream'
          cases hstream'

theorem operation_error {α : Type} {token : Nat} {o : Except CubebError α}
    {f : α → Item ClientMessage} (hmsg : msg.operatesOn = some token) :
    (do return ⟨← s.tryStream token o f, s, context, manager⟩ : Except ServerPanic Served)
      = .error p ↔ s.Panics msg p := by
  rw [panics_operation hmsg, ← tryStream_error (o := o) (f := f)]
  cases s.tryStream token o f with
  | error p' => exact ⟨fun h => by cases h; rfl, fun h => by cases h; rfl⟩
  | ok r => exact ⟨nofun, nofun⟩

theorem shmAreaSizeFor_ok (s : CubebServer) {params : StreamCreateParams} (h : params.Valid) :
    ∃ size, s.shmAreaSizeFor params = .ok size := by
  unfold shmAreaSizeFor
  split
  · obtain ⟨size, hsize, -⟩ := estimateShmAreaSize_ok h
    exact ⟨size, hsize⟩
  · exact ⟨_, rfl⟩

theorem processStreamCreate_ok (h : s.Inv) (params : StreamCreateParams) :
    s.processStreamCreate out params ≠ .error p := by
  intro herr
  unfold processStreamCreate at herr
  split at herr
  · cases herr
  · rename_i hvalid
    obtain ⟨size, hsize⟩ := s.shmAreaSizeFor_ok (validateStreamCreateParams_ok hvalid)
    obtain ⟨pid, hpid⟩ := Option.isSome_iff_exists.mp h.pid
    rw [hsize, ok_bind] at herr
    split at herr
    · rw [hpid] at herr
      cases herr
    · cases herr

/-- For a slot that has been created, only the device handles are left to
fail. -/
theorem initStream_error (h : s.Inv) {token : Nat} {slot : ServerStream}
    {params : StreamCreateParams} (hslot : slot.Created) (hparams : slot.params = some params) :
    s.initStream out token slot params = .error p ↔ p = .deviceHandle ∧
      s.devidmap.devices.length ≤ max params.inputDevice params.outputDevice := by
  obtain ⟨latency, hlatency⟩ : ∃ latency, streamLatency params = .ok latency := by
    obtain ⟨params', hparams', hvalid⟩ := hslot.params
    rw [hparams] at hparams'
    cases hparams'
    obtain ⟨-, -, -, latency, -, -, -, -, -, hlatency, -⟩ :=
      streamLatency_ok (validateStreamCreateParams_ok hvalid)
    exact ⟨latency, hlatency⟩
  obtain ⟨clientPipe, hpipe⟩ := Option.isSome_iff_exists.mp hslot.clientPipe
  obtain ⟨pid, hpid⟩ := Option.isSome_iff_exists.mp h.pid
  unfold initStream
  rcases s.devidmap.handleToId_cases params.inputDevice with ⟨hin, din, hdin⟩ | ⟨hin, hdin⟩
  · rw [hdin]
    rcases s.devidmap.handleToId_cases params.outputDevice with ⟨hout, dout, hdout⟩ | ⟨hout, hdout⟩
    · have hok : ¬ s.devidmap.devices.length ≤ max params.inputDevice params.outputDevice := by
        omega
      rw [hdout, hlatency]
      simp only [ok_bind]
      split
      · exact ⟨fun h => (by cases h), fun h => absurd h.2 hok⟩
      · split
        · rename_i hnone
          rw [hpipe] at hnone
          cases hnone
        · rename_i hnone
          rw [hpid] at hnone
          cases hnone
        · exact ⟨fun h => (by cases h), fun h => absurd h.2 hok⟩
    · rw [hdout]
      exact ⟨fun h => by cases h; exact ⟨rfl, by omega⟩, fun h => h.1 ▸ rfl⟩
  · rw [hdin]
    exact ⟨fun h => by cases h; exact ⟨rfl, by omega⟩, fun h => h.1 ▸ rfl⟩

theorem processStreamInit_error (out : Outcome) (h : s.Inv) {token : Nat} :
    s.processStreamInit out token = .error p ↔ s.Panics (.streamInit token) p := by
  have hpanics : s.Panics (.streamInit token) p ↔ p = .deviceHandle ∧
      ∃ slot params, s.streams token = some slot ∧ slot.stream = none ∧
        slot.params = some params ∧
        s.devidmap.devices.length ≤ max params.inputDevice params.outputDevice := by
    constructor
    · intro h
      cases h with
      | uninitializedStream hmsg => cases hmsg
      | deviceHandle hslot hstream hparams hhandle =>
          exact ⟨rfl, _, _, hslot, hstream, hparams, hhandle⟩
    · rintro ⟨rfl, slot, params, hslot, hstream, hparams, hhandle⟩
      exact .deviceHandle hslot hstream hparams hhandle
  rw [hpanics]
  unfold processStreamInit
  split
  · rename_i hnone
    exact ⟨nofun, fun ⟨_, _, _, h, _⟩ => nomatch hnone.symm.trans h⟩
  · rename_i slot hslot
    split
    · rename_i hstream
      refine ⟨nofun, fun ⟨_, slot', _, hslot', hstream', _⟩ => ?_⟩
      rw [hslot] at hslot'
      cases hslot'
      rw [hstream] at hstream'
      cases hstream'
    · rename_i hparams
      refine ⟨nofun, fun ⟨_, slot', _, hslot', _, hparams', _⟩ => ?_⟩
      rw [hslot] at hslot'
      cases hslot'
      rw [hparams] at hparams'
      cases hparams'
    · rename_i params hstream hparams
      rw [initStream_error h (h.idle hslot hstream).1 hparams]
      refine ⟨fun ⟨hp, hhandle⟩ => ⟨hp, slot, params, hslot, hstream, hparams, hhandle⟩, ?_⟩
      rintro ⟨hp, slot', params', hslot', -, hparams', hhandle⟩
      rw [hslot] at hslot'
      cases hslot'
      rw [hparams] at hparams'
      cases hparams'
      exact ⟨hp, hhandle⟩

theorem processRegister_error {bits : UInt32} {enable : Bool} :
    s.processRegisterDeviceCollectionChanged out context manager (.fromBitsTruncate bits) enable
      = .error p ↔ s.Panics (.contextRegisterDeviceCollectionChanged bits enable) p := by
  unfold processRegisterDeviceCollectionChanged
  split
  · rename_i hbits
    refine ⟨fun h => (by cases h), fun h => ?_⟩
    cases h with
    | uninitializedStream hmsg => cases hmsg
    | noDeviceCollectionCallbacks hbits' => exact absurd hbits hbits'
  · rename_i hbits
    split
    · rename_i hnone
      refine ⟨fun h => by cases h; exact .noDeviceCollectionCallbacks hbits hnone, fun h => ?_⟩
      cases h with
      | uninitializedStream hmsg => cases hmsg
      | noDeviceCollectionCallbacks => rfl
    · rename_i hsome
      refine ⟨fun h => by (dsimp only at h; split at h <;> cases h), fun h => ?_⟩
      cases h with
      | uninitializedStream hmsg => cases hmsg
      | noDeviceCollectionCallbacks _ hnone => rw [hsome] at hnone; cases hnone

/-- What a request panics on, if it does. -/
theorem processMsg_error (h : s.Inv) :
    s.processMsg out context manager msg = .error p ↔ s.Panics msg p := by
  obtain ⟨pid, hpid⟩ := Option.isSome_iff_exists.mp h.pid
  -- most requests return, and none of the panics is theirs
  have hnever : s.processMsg out context manager msg ≠ .error p → ¬ s.Panics msg p →
      (s.processMsg out context manager msg = .error p ↔ s.Panics msg p) :=
    fun h₁ h₂ => ⟨fun h => absurd h h₁, fun h => absurd h h₂⟩
  cases msg with
  | streamStart | streamStop | streamGetPosition | streamGetLatency | streamGetInputLatency
  | streamSetVolume | streamSetName | streamGetCurrentDevice | streamSetInputMute
  | streamSetInputProcessingParams | streamRegisterDeviceChangeCallback =>
      exact operation_error rfl
  | contextRegisterDeviceCollectionChanged bits enable => exact processRegister_error
  | streamInit token =>
      rw [← processStreamInit_error out h]
      simp only [processMsg]
      cases s.processStreamInit out token with
      | error p' => exact ⟨fun h => by cases h; rfl, fun h => by cases h; rfl⟩
      | ok r => exact ⟨fun h => (by cases h), fun h => (by cases h)⟩
  | streamCreate params =>
      refine hnever (fun herr => ?_) fun h => by cases h with | uninitializedStream h => cases h
      simp only [processMsg] at herr
      cases hr : s.processStreamCreate out params with
      | error p' => exact processStreamCreate_ok h params hr
      | ok r => rw [hr] at herr; cases herr
  | clientConnect | promoteThreadToRealTime =>
      refine hnever (fun herr => ?_) fun h => by cases h with | uninitializedStream h => cases h
      simp only [processMsg, hpid] at herr
      cases herr
  | contextSetupDeviceCollectionCallback =>
      refine hnever (fun herr => ?_) fun h => by cases h with | uninitializedStream h => cases h
      simp only [processMsg, hpid] at herr
      split at herr <;> cases herr
      rename_i hnone
      cases hnone
  | streamDestroy | contextGetDeviceEnumeration =>
      refine hnever (fun herr => ?_) fun h => by cases h with | uninitializedStream h => cases h
      simp only [processMsg] at herr
      split at herr <;> cases herr
  | clientDisconnect | contextGetBackendId | contextGetMaxChannelCount | contextGetMinLatency
  | contextGetPreferredSampleRate | contextGetSupportedInputProcessingParams =>
      refine hnever (fun herr => ?_) fun h => by cases h with | uninitializedStream h => cases h
      cases herr

/-! ## Runs -/

/-- Whatever requests a server has served, the next one returns a response
unless one of the three checks fails, and panics exactly if one does. -/
theorem process_msg_returns (remotePid : Nat) (shmAreaSize : UInt64) {qs : List Request}
    (hrun : Lts.runs step (new remotePid shmAreaSize) qs = some s) (out : Outcome)
    (context : Context) (manager : CubebDeviceCollectionManager) (msg : ServerMessage) :
    ((∃ served, s.processMsg out context manager msg = .ok served) ↔ ¬ ∃ p, s.Panics msg p) ∧
    ∀ p, s.processMsg out context manager msg = .error p ↔ s.Panics msg p := by
  have herror : ∀ p, s.processMsg out context manager msg = .error p ↔ s.Panics msg p :=
    fun p => processMsg_error (runs_inv hrun)
  refine ⟨?_, herror⟩
  constructor
  · rintro ⟨served, hserved⟩ ⟨p, hp⟩
    rw [(herror p).mpr hp] at hserved
    cases hserved
  · intro hnone
    cases hr : s.processMsg out context manager msg with
    | ok served => exact ⟨served, rfl⟩
    | error p => exact absurd ⟨p, (herror p).mp hr⟩ hnone

/-- A mono output stream on a device. -/
def monoOutput (device : Nat) : StreamCreateParams where
  streamName := none
  inputDevice := 0
  inputStreamParams := none
  outputDevice := device
  outputStreamParams := some ⟨CUBEB_SAMPLE_S16LE, 48000, 1, 0, 0, 0⟩
  latencyFrames := 0

/-- A request in which nothing fails. -/
def succeeding (key : Nat) (msg : ServerMessage) : Request :=
  ⟨.success key, ⟨false, false⟩, .new, msg⟩

/-- How a server that has served these requests panics on another, if it does. -/
def panicAfter (qs : List Request) (msg : ServerMessage) : Option ServerPanic :=
  (Lts.runs step (new 1 0) qs).bind fun s =>
    match s.processMsg (.success 9) ⟨false, false⟩ .new msg with
    | .ok _ => none
    | .error p => some p

theorem of_panicAfter {qs : List Request} (h : panicAfter qs msg = some p) :
    ∃ s, Lts.runs step (new 1 0) qs = some s ∧
      s.processMsg (.success 9) ⟨false, false⟩ .new msg = .error p := by
  unfold panicAfter at h
  obtain ⟨s, hrun, hs⟩ := Option.bind_eq_some_iff.mp h
  refine ⟨s, hrun, ?_⟩
  split at hs
  · cases hs
  · rename_i herr
    cases hs
    exact herr

/-- A stream that is created, initialised and started. -/
theorem process_msg_returns_run : ∃ s, Lts.runs step (new 1 0)
      [succeeding 0 (.streamCreate (monoOutput 0)), succeeding 1 (.streamInit 0)] = some s ∧
    ∃ served, s.processMsg (.success 1) ⟨false, false⟩ .new (.streamStart 0) = .ok served := by
  have hrun : (Lts.runs step (new 1 0)
      [succeeding 0 (.streamCreate (monoOutput 0)), succeeding 1 (.streamInit 0)]).any
        (fun s => (s.streams 0).any fun slot => slot.stream.isSome) = true := by decide +kernel
  obtain ⟨s, hs, hrunning⟩ := (Option.any_eq_true _ _).mp hrun
  refine ⟨s, hs, (process_msg_returns 1 0 hs _ _ _ _).1.mpr ?_⟩
  rintro ⟨p, hp⟩
  cases hp with
  | uninitializedStream hmsg hslot hstream =>
      cases hmsg
      simp [hslot, hstream] at hrunning

/-- A client starts a stream that it has created and not initialised; asks
for the changes of a device collection that it has not set up; initialises a
stream on a device that it has not enumerated. -/
theorem process_msg_panics_run :
    (∃ s, Lts.runs step (new 1 0) [succeeding 0 (.streamCreate (monoOutput 0))] = some s ∧
      s.processMsg (.success 9) ⟨false, false⟩ .new (.streamStart 0)
        = .error .uninitializedStream) ∧
    (∃ s, Lts.runs step (new 1 0) [] = some s ∧
      s.processMsg (.success 9) ⟨false, false⟩ .new
        (.contextRegisterDeviceCollectionChanged 1 true) = .error .noDeviceCollectionCallbacks) ∧
    (∃ s, Lts.runs step (new 1 0) [succeeding 0 (.streamCreate (monoOutput 1))] = some s ∧
      s.processMsg (.success 9) ⟨false, false⟩ .new (.streamInit 0) = .error .deviceHandle) :=
  ⟨of_panicAfter (by decide +kernel), of_panicAfter (by decide +kernel),
    of_panicAfter (by decide +kernel)⟩

end CubebServer

end Audioipc

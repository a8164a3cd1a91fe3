import Audioipc.Lifecycle

/-!
# Device ids over the life of a server

A client keeps the handles it was given in `ContextEnumeratedDevices` for as
long as it likes and sends them back in `StreamCreate`. `given` is the record
of all of them, each with the id that cubeb had for the device.

Only an enumeration touches the map, and it only appends to it
(`processMsg_devidmap`), so a handle goes on finding its id (`Inv`). That ids
and handles correspond one to one is then what `DevIdMap` carries: no
duplicates, and 0 in front (`DevIdMap.Finds.eq_iff`).
-/

namespace Audioipc

/-! ## The map -/

namespace DevIdMap

variable {m m' : DevIdMap} {devid devid' handle handle' : Nat}

def Finds (m : DevIdMap) (devid handle : Nat) : Prop := m.devices[handle]? = some devid

theorem Finds.eq_iff (h : m.Finds devid handle) (h' : m.Finds devid' handle') :
    devid = devid' ↔ handle = handle' := by
  constructor
  · rintro rfl
    obtain ⟨hlt, heq⟩ := List.getElem?_eq_some_iff.mp h
    obtain ⟨hlt', heq'⟩ := List.getElem?_eq_some_iff.mp h'
    exact (m.nodup.getElem_inj_iff).mp (heq.trans heq'.symm)
  · rintro rfl
    exact Option.some.inj (h.symm.trans h')

theorem finds_null (m : DevIdMap) : m.Finds 0 0 := m.null

theorem Finds.mono (h : m.Finds devid handle) (hle : m.devices <+: m'.devices) :
    m'.Finds devid handle := by
  obtain ⟨more, heq⟩ := hle
  unfold Finds
  rw [← heq, List.getElem?_append_left (List.getElem?_eq_some_iff.mp h).1]
  exact h

theorem makeHandle_spec (m : DevIdMap) (devid : Nat) :
    m.devices <+: (m.makeHandle devid).2.devices ∧
      (m.makeHandle devid).2.Finds devid (m.makeHandle devid).1 := by
  unfold makeHandle
  split
  · rename_i hin
    refine ⟨List.prefix_refl _, ?_⟩
    show m.devices[m.devices.idxOf devid]? = some devid
    rw [List.getElem?_eq_getElem (List.idxOf_lt_length_of_mem hin), List.getElem_idxOf]
  · exact ⟨List.prefix_append .., List.getElem?_concat_length⟩

/-- The devices of an enumeration, as cubeb has them and as the client sees them. -/
theorem makeHandles_spec (m : DevIdMap) (ds : List DeviceInfo) :
    m.devices <+: (m.makeHandles ds).2.devices ∧
      ∀ p ∈ ds.zip (m.makeHandles ds).1, (m.makeHandles ds).2.Finds p.1.devid p.2.devid := by
  induction ds generalizing m with
  | nil => exact ⟨List.prefix_refl _, fun p hp => absurd hp List.not_mem_nil⟩
  | cons d ds ih =>
      obtain ⟨hle, hfinds⟩ := m.makeHandle_spec d.devid
      obtain ⟨hle', hall⟩ := ih (m.makeHandle d.devid).2
      refine ⟨hle.trans hle', fun p hp => ?_⟩
      rcases List.mem_cons.mp hp with rfl | hp
      · exact hfinds.mono hle'
      · exact hall p hp

end DevIdMap

def ClientMessage.devices? : ClientMessage → Option (List DeviceInfo)
  | .contextEnumeratedDevices v => some v
  | _ => none

/-- The ids of the devices in a response, each with its handle. -/
def enumerated (out : Outcome) (r : Item ClientMessage) : List (Nat × Nat) :=
  match out.devices, r.body.devices? with
  | .ok devices, some v => (devices.zip v).map fun p => (p.1.devid, p.2.devid)
  | _, _ => []

theorem enumerated_eq_nil (out : Outcome) {r : Item ClientMessage} (h : r.body.devices? = none) :
    enumerated out r = [] := by
  unfold enumerated
  rw [h]
  split
  · rename_i heq
    cases heq
  · rfl

namespace CubebServer

variable {out : Outcome} {context : Context} {manager : CubebDeviceCollectionManager}
  {s s' : CubebServer} {msg : ServerMessage}

/-! ## What a request does to the map -/

theorem processStreamCreate_devidmap {params : StreamCreateParams}
    {o : Option (Item ClientMessage)} (h : s.processStreamCreate out params = .ok (o, s')) :
    s'.devidmap = s.devidmap ∧ (o.getD (error .error)).body.devices? = none := by
  unfold processStreamCreate at h
  split at h
  · cases h
    exact ⟨rfl, rfl⟩
  · cases hsize : s.shmAreaSizeFor params with
    | error p => rw [hsize] at h; cases h
    | ok size =>
        rw [hsize] at h
        dsimp only [bind, Except.bind] at h
        split at h
        · split at h <;> cases h
          exact ⟨rfl, rfl⟩
        · cases h
          exact ⟨rfl, rfl⟩

/-- The arguments of `context.stream_init` in `process_stream_init`. -/
def streamInitArgs (s : CubebServer) (params : StreamCreateParams) :
    Except ServerPanic CubebStream := do
  let inputDevice ← s.devidmap.handleToId params.inputDevice
  let outputDevice ← s.devidmap.handleToId params.outputDevice
  let latency ← streamLatency params
  return {
    streamName := params.streamName.bind cstr
    inputDevice, inputStreamParams := params.inputStreamParams
    outputDevice, outputStreamParams := params.outputStreamParams, latency }

theorem streamInitArgs_devices {params : StreamCreateParams} {stream : CubebStream}
    (h : s.streamInitArgs params = .ok stream) :
    s.devidmap.handleToId params.inputDevice = .ok stream.inputDevice ∧
      s.devidmap.handleToId params.outputDevice = .ok stream.outputDevice := by
  unfold streamInitArgs at h
  cases hin : s.devidmap.handleToId params.inputDevice with
  | error p => rw [hin] at h; cases h
  | ok inputDevice =>
      cases hout : s.devidmap.handleToId params.outputDevice with
      | error p => rw [hin, hout] at h; cases h
      | ok outputDevice =>
          rw [hin, hout] at h
          cases hlatency : streamLatency params with
          | error p => rw [hlatency] at h; cases h
          | ok latency =>
              rw [hlatency] at h
              cases h
              exact ⟨rfl, rfl⟩

theorem initStream_args {token : Nat} {slot : ServerStream} {params : StreamCreateParams}
    {o : Option (Item ClientMessage)} (h : s.initStream out token slot params = .ok (o, s')) :
    s'.devidmap = s.devidmap ∧ (o.getD (error .error)).body.devices? = none ∧
      ∃ stream, s.streamInitArgs params = .ok stream ∧
        ∀ slot', s'.streams token = some slot' → slot'.stream = some stream := by
  unfold initStream at h
  unfold streamInitArgs
  cases hin : s.devidmap.handleToId params.inputDevice with
  | error p => rw [hin] at h; cases h
  | ok inputDevice =>
      cases hout : s.devidmap.handleToId params.outputDevice with
      | error p => rw [hin, hout] at h; cases h
      | ok outputDevice =>
          cases hlatency : streamLatency params with
          | error p => rw [hin, hout, hlatency] at h; cases h
          | ok latency =>
              rw [hin, hout, hlatency] at h
              simp only [ok_bind] at h
              split at h
              · cases h
                refine ⟨rfl, rfl, _, rfl, fun slot' hslot' => ?_⟩
                simp only [setStream, Function.update_self] at hslot'
                cases hslot'
              · split at h
                · cases h
                · cases h
                · cases h
                  refine ⟨rfl, rfl, _, rfl, fun slot' hslot' => ?_⟩
                  simp only [setStream, Function.update_self, Option.some.injEq] at hslot'
                  rw [← hslot']

theorem processStreamInit_devidmap {token : Nat} {o : Option (Item ClientMessage)}
    (h : s.processStreamInit out token = .ok (o, s')) :
    s'.devidmap = s.devidmap ∧ (o.getD (error .error)).body.devices? = none := by
  unfold processStreamInit at h
  split at h
  · cases h
    exact ⟨rfl, rfl⟩
  · split at h
    · cases h
      exact ⟨rfl, rfl⟩
    · cases h
      exact ⟨rfl, rfl⟩
    · obtain ⟨hmap, hbody, -⟩ := initStream_args h
      exact ⟨hmap, hbody⟩

/-- The map is only appended to, and finds the ids behind the handles given
out. -/
theorem processMsg_devidmap {served : Served}
    (h : s.processMsg out context manager msg = .ok served) :
    s.devidmap.devices <+: served.server.devidmap.devices ∧
      ∀ p ∈ enumerated out served.response, served.server.devidmap.Finds p.1 p.2 := by
  have hsame : served.server.devidmap = s.devidmap → served.response.body.devices? = none →
      s.devidmap.devices <+: served.server.devidmap.devices ∧
        ∀ p ∈ enumerated out served.response, served.server.devidmap.Finds p.1 p.2 := by
    intro hmap hbody
    rw [hmap, enumerated_eq_nil out hbody]
    exact ⟨List.prefix_refl _, fun p hp => absurd hp List.not_mem_nil⟩
  cases msg with
  | contextGetDeviceEnumeration =>
      simp only [processMsg] at h
      split at h
      · cases h
        exact hsame rfl rfl
      · rename_i devices hdevices
        cases h
        obtain ⟨hle, hall⟩ := s.devidmap.makeHandles_spec devices
        refine ⟨hle, fun p hp => ?_⟩
        unfold enumerated at hp
        rw [hdevices] at hp
        obtain ⟨q, hq, rfl⟩ := List.mem_map.mp hp
        exact hall q hq
  | streamCreate params =>
      simp only [processMsg, bind, Except.bind] at h
      split at h
      · cases h
      · rename_i hr
        cases h
        obtain ⟨hmap, hbody⟩ := processStreamCreate_devidmap hr
        exact hsame hmap hbody
  | streamInit token =>
      simp only [processMsg, bind, Except.bind] at h
      split at h
      · cases h
      · rename_i hr
        cases h
        obtain ⟨hmap, hbody⟩ := processStreamInit_devidmap hr
        exact hsame hmap hbody
  | streamDestroy token =>
      simp only [processMsg] at h
      split at h <;> cases h <;> exact hsame rfl rfl
  | contextSetupDeviceCollectionCallback =>
      simp only [processMsg] at h
      split at h <;> cases h <;> exact hsame rfl rfl
  | contextRegisterDeviceCollectionChanged =>
      simp only [processMsg, processRegisterDeviceCollectionChanged] at h
      split at h
      · cases h
        exact hsame rfl rfl
      · split at h
        · cases h
        · split at h <;> cases h <;> exact hsame rfl rfl
  | clientConnect | promoteThreadToRealTime =>
      simp only [processMsg] at h
      split at h <;> cases h
      exact hsame rfl rfl
  | clientDisconnect | contextGetBackendId =>
      cases h
      exact hsame rfl rfl
  | contextGetMaxChannelCount | contextGetMinLatency | contextGetPreferredSampleRate
  | contextGetSupportedInputProcessingParams =>
      simp only [processMsg, pure, Except.pure, Except.ok.injEq] at h
      split at h <;> cases h <;> exact hsame rfl rfl
  | streamStart | streamStop | streamGetPosition | streamGetLatency | streamGetInputLatency
  | streamSetVolume | streamSetName | streamGetCurrentDevice | streamSetInputMute
  | streamSetInputProcessingParams | streamRegisterDeviceChangeCallback =>
      obtain ⟨heq, -, -, hbody⟩ := tryStream_served (P := (·.devices? = none))
        (fun _ => rfl) (fun _ => rfl) h
      exact hsame (congrArg devidmap heq) hbody

end CubebServer

/-! ## Runs -/

/-- A server, and the handles it has given to its client. -/
structure DeviceHistory where
  server : CubebServer
  given : List (Nat × Nat)

namespace DeviceHistory

variable {h h' : DeviceHistory}

def new (remotePid : Nat) (shmAreaSize : UInt64) : DeviceHistory := ⟨.new remotePid shmAreaSize, []⟩

def step (h : DeviceHistory) (q : CubebServer.Request) : Option DeviceHistory :=
  match h.server.processMsg q.out q.context q.manager q.msg with
  | .ok served => some ⟨served.server, h.given ++ enumerated q.out served.response⟩
  | .error _ => none

def Inv (h : DeviceHistory) : Prop := ∀ p ∈ h.given, h.server.devidmap.Finds p.1 p.2

theorem step_inv (hinv : h.Inv) {q : CubebServer.Request} (hs : h.step q = some h') : h'.Inv := by
  unfold step at hs
  split at hs
  · rename_i served hserved
    cases hs
    obtain ⟨hle, hall⟩ := CubebServer.processMsg_devidmap hserved
    intro p hp
    rcases List.mem_append.mp hp with hold | hnew
    · exact (hinv p hold).mono hle
    · exact hall p hnew
  · cases hs

/-- The ids and handles given out correspond one to one, now and for good, and
a stream on an enumerated device is opened with the id that cubeb knows
(`opened`). -/
structure Stable (h : DeviceHistory) : Prop where
  found : ∀ p ∈ h.given, h.server.devidmap.handleToId p.2 = .ok p.1
  unique : ∀ p ∈ h.given, ∀ q ∈ h.given, p.1 = q.1 ↔ p.2 = q.2
  null : ∀ p ∈ h.given, p.1 = 0 ↔ p.2 = 0
  accepted : ∀ handle, (∃ devid, h.server.devidmap.handleToId handle = .ok devid) ↔
    handle < h.server.devidmap.devices.length
  opened : ∀ out token slot params, h.server.streams token = some slot → slot.stream = none →
    slot.params = some params → ∀ o s', h.server.processStreamInit out token = .ok (o, s') →
      ∃ stream, h.server.streamInitArgs params = .ok stream ∧
        (∀ slot', s'.streams token = some slot' → slot'.stream = some stream) ∧
        ∀ p ∈ h.given, (params.inputDevice = p.2 → stream.inputDevice = p.1) ∧
          (params.outputDevice = p.2 → stream.outputDevice = p.1)

theorem Inv.stable (hinv : h.Inv) : h.Stable := by
  have hfound : ∀ p ∈ h.given, h.server.devidmap.handleToId p.2 = .ok p.1 :=
    fun p hp => DevIdMap.handleToId_eq_ok.mpr (hinv p hp)
  refine ⟨hfound, fun p hp q hq => (hinv p hp).eq_iff (hinv q hq),
    fun p hp => (hinv p hp).eq_iff h.server.devidmap.finds_null, fun handle => ?_,
    fun out token slot params hslot hstream hparams o s' hinit => ?_⟩
  · rcases h.server.devidmap.handleToId_cases handle with ⟨hlt, hok⟩ | ⟨hle, herr⟩
    · exact ⟨fun _ => hlt, fun _ => hok⟩
    · refine ⟨?_, fun hlt => absurd hlt (Nat.not_lt.mpr hle)⟩
      rintro ⟨devid, hok⟩
      rw [herr] at hok
      cases hok
  · unfold CubebServer.processStreamInit at hinit
    simp only [hslot, hstream, hparams] at hinit
    obtain ⟨-, -, stream, hargs, hmade⟩ := CubebServer.initStream_args hinit
    obtain ⟨hin, hout⟩ := CubebServer.streamInitArgs_devices hargs
    refine ⟨stream, hargs, hmade, fun p hp => ⟨fun heq => ?_, fun heq => ?_⟩⟩
    · rw [heq, hfound p hp] at hin
      exact (Except.ok.inj hin).symm
    · rw [heq, hfound p hp] at hout
      exact (Except.ok.inj hout).symm

theorem device_ids_stable {remotePid : Nat} {shmAreaSize : UInt64}
    {qs : List CubebServer.Request}
    (hrun : Lts.runs step (new remotePid shmAreaSize) qs = some h) : h.Stable := by
  have hinv : h.Inv := Lts.runs_invariant (fun _ _ _ hinv hs => step_inv hinv hs)
    (fun p hp => absurd hp List.not_mem_nil) hrun
  exact hinv.stable

/-- cubeb lists devices with these ids. -/
def enumerating (ids : List Nat) : CubebServer.Request :=
  ⟨{ Outcome.success 0 with devices := .ok (ids.map .mk) }, ⟨false, false⟩, .new,
    .contextGetDeviceEnumeration 3⟩

/-- The client asks with a handle of 2 for a stream, which gets the key 0. -/
def creating : CubebServer.Request :=
  ⟨.success 0, ⟨false, false⟩, .new,
    .streamCreate ⟨none, 0, none, 2, some ⟨CUBEB_SAMPLE_FLOAT32LE, 48000, 2, 0, 0, 0⟩, 0⟩⟩

def initializing : CubebServer.Request := ⟨.success 1, ⟨false, false⟩, .new, .streamInit 0⟩

/-- The device cubeb opens a stream on. -/
def outputOf (h : DeviceHistory) (token : Nat) : Option Nat :=
  (h.server.streams token).bind fun slot => slot.stream.map (·.outputDevice)

/-- Lists that repeat ids, with the default device and without, and a stream on
a device of the first that is opened after the second. -/
theorem device_ids_stable_run : ∃ h,
    Lts.runs step (new 1 0)
      [enumerating [5, 0, 5, 9], creating, enumerating [9, 7], initializing] = some h ∧
    h.given = [(5, 1), (0, 0), (5, 1), (9, 2), (9, 2), (7, 3)] ∧ h.outputOf 0 = some 9 ∧
    h.Stable := by
  have hrun : (Lts.runs step (new 1 0)
      [enumerating [5, 0, 5, 9], creating, enumerating [9, 7], initializing]).map
      (fun h => (h.given, h.outputOf 0)) =
      some ([(5, 1), (0, 0), (5, 1), (9, 2), (9, 2), (7, 3)], some 9) := by decide +kernel
  obtain ⟨h, hs, heq⟩ := Option.map_eq_some_iff.mp hrun
  obtain ⟨hgiven, houtput⟩ := Prod.mk.inj heq
  exact ⟨h, hs, hgiven, houtput, device_ids_stable hs⟩

end DeviceHistory

end Audioipc

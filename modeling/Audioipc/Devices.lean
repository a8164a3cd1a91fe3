import Mathlib.Data.List.Basic
import Mathlib.Data.List.Nodup
import Audioipc.Messages

/-!
# Devices

The parts of `server.rs` that all streams of a client, or all clients of a
server process, have in common: the map of device ids and the list of
servers that want to hear of changes of the device collection.

`DevIdMap` carries what makes it a map: no id has two handles, and handle 0
is the default device.
-/

namespace Audioipc

/-- The places in which the code of the server can panic: the three that its
requests can reach (`try_stream!`, the assertion that there are
`device_collection_change_callbacks`, and the index into `devices`), the
`unwrap`s of `remote_pid` and of the rate of the input stream, overflows of
`u32`, the assertions of `round_up_pow2` and `clamp`, and the `expect` after
`StreamCreated`. -/
inductive ServerPanic where
  | uninitializedStream
  | noDeviceCollectionCallbacks
  | deviceHandle
  | noRemotePid
  | noRate
  | overflow
  | roundUpZero
  | clampRange
  | invalidState
deriving Repr, DecidableEq

/-! ## Device ids -/

structure DevIdMap where
  devices : List Nat
  null : devices[0]? = some 0
  nodup : devices.Nodup

namespace DevIdMap

/-- A null `cubeb_devid` selects the default device. -/
def new : DevIdMap := ⟨[0], rfl, by simp⟩

def makeHandle (m : DevIdMap) (devid : Nat) : Nat × DevIdMap :=
  if h : devid ∈ m.devices then (m.devices.idxOf devid, m)
  else (m.devices.length, {
    devices := m.devices ++ [devid]
    null := by
      have hne : m.devices ≠ [] := by
        intro hnil
        have := m.null
        rw [hnil] at this
        cases this
      rw [List.getElem?_append_left (List.length_pos_of_ne_nil hne)]
      exact m.null
    nodup := List.nodup_append.mpr ⟨m.nodup, List.nodup_singleton _, fun d hd d' hd' heq =>
      h (List.mem_singleton.mp hd' ▸ heq ▸ hd)⟩ })

/-- Invalid handles result in a panic. -/
def handleToId (m : DevIdMap) (handle : Nat) : Except ServerPanic Nat :=
  match m.devices[handle]? with
  | some devid => return devid
  | none => throw .deviceHandle

/-- Replace each id by its handle. -/
def makeHandles (m : DevIdMap) : List DeviceInfo → List DeviceInfo × DevIdMap
  | [] => ([], m)
  | d :: ds =>
      let (devid, m) := m.makeHandle d.devid
      let (ds, m) := m.makeHandles ds
      ({ d with devid } :: ds, m)

theorem handleToId_eq_ok {m : DevIdMap} {handle devid : Nat} :
    m.handleToId handle = .ok devid ↔ m.devices[handle]? = some devid := by
  unfold handleToId
  cases m.devices[handle]? with
  | none => exact ⟨nofun, nofun⟩
  | some d => exact ⟨fun h => congrArg some (Except.ok.inj h), fun h => by cases h; rfl⟩

theorem handleToId_cases (m : DevIdMap) (handle : Nat) :
    (handle < m.devices.length ∧ ∃ devid, m.handleToId handle = .ok devid) ∨
    (m.devices.length ≤ handle ∧ m.handleToId handle = .error .deviceHandle) := by
  unfold handleToId
  rcases Nat.lt_or_ge handle m.devices.length with h | h
  · rw [List.getElem?_eq_getElem h]
    exact Or.inl ⟨h, _, rfl⟩
  · rw [List.getElem?_eq_none h]
    exact Or.inr ⟨h, rfl⟩

end DevIdMap

/-! ## Changes of the device collection -/

/-- `cubeb::DeviceType`, a set of directions. -/
structure DeviceType where
  input : Bool
  output : Bool
deriving Repr, DecidableEq

def DeviceType.UNKNOWN : DeviceType := ⟨false, false⟩

/-- `DeviceType::from_bits_truncate`. -/
def DeviceType.fromBitsTruncate (bits : UInt32) : DeviceType :=
  ⟨bits &&& 1 ≠ 0, bits &&& 2 ≠ 0⟩

/-- A `DeviceCollectionChangeCallback`, by its address. -/
abbrev CallbacksId := Nat

/-- The directions in which the manager's callback is registered with a
`cubeb::Context`. -/
structure Context where
  input : Bool
  output : Bool
deriving Repr, DecidableEq

/-- What `register_device_collection_changed` returns for each direction. -/
structure RegisterOutcome where
  input : Except CubebError Unit
  output : Except CubebError Unit

structure CubebDeviceCollectionManager where
  servers : List (CallbacksId × DeviceType)
deriving Repr, DecidableEq

namespace CubebDeviceCollectionManager

def new : CubebDeviceCollectionManager := ⟨[]⟩

def internalRegister (out : RegisterOutcome) (enable : Bool) (context : Context) :
    Except CubebError Unit × Context :=
  match out.input with
  | .error e => (.error e, context)
  | .ok () =>
      let context := { context with input := enable }
      match out.output with
      | .error e => (.error e, context)
      | .ok () => (.ok (), { context with output := enable })

def register (out : RegisterOutcome) (m : CubebDeviceCollectionManager) (context : Context)
    (server : CallbacksId) (devtype : DeviceType) :
    Except CubebError Unit × Context × CubebDeviceCollectionManager :=
  if m.servers.isEmpty then
    match internalRegister out true context with
    | (.error e, context) => (.error e, context, m)
    | (.ok (), context) => (.ok (), context, ⟨m.servers ++ [(server, devtype)]⟩)
  else (.ok (), context, ⟨m.servers ++ [(server, devtype)]⟩)

def unregister (out : RegisterOutcome) (m : CubebDeviceCollectionManager) (context : Context)
    (server : CallbacksId) (devtype : DeviceType) :
    Except CubebError Unit × Context × CubebDeviceCollectionManager :=
  let m : CubebDeviceCollectionManager :=
    ⟨m.servers.filter fun (s, d) => s ≠ server ∨ d ≠ devtype⟩
  if m.servers.isEmpty then
    let (r, context) := internalRegister out false context
    (r, context, m)
  else (.ok (), context, m)

end CubebDeviceCollectionManager

end Audioipc

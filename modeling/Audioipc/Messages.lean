import Audioipc.Driver

/-!
# Messages

`messages.rs`: what a client asks of a `CubebServer`, what it is answered,
and the requests that the server makes of its client in turn. Handles are
not part of a message here: they are in the `Item` around it.

Numbers that cubeb only passes on keep the width they have in the message.
Texts are their bytes, and a volume is the bits of its `f32`.
-/

namespace Audioipc

/-- `cubeb::Error`. -/
inductive CubebError where
  | error
  | invalidFormat
  | invalidParameter
  | notSupported
  | deviceUnavailable
deriving Repr, DecidableEq

def CubebError.code : CubebError → Int
  | .error => -1
  | .invalidFormat => -2
  | .invalidParameter => -3
  | .notSupported => -4
  | .deviceUnavailable => -5

/-- `ffi::CUBEB_ERROR`. -/
def CUBEB_ERROR : Int := CubebError.error.code

def CUBEB_SAMPLE_S16LE : UInt32 := 0
def CUBEB_SAMPLE_S16BE : UInt32 := 1
def CUBEB_SAMPLE_FLOAT32LE : UInt32 := 2
def CUBEB_SAMPLE_FLOAT32BE : UInt32 := 3

structure StreamParams where
  format : UInt32
  rate : UInt32
  channels : UInt32
  layout : UInt32
  prefs : UInt32
  inputParams : UInt32
deriving Repr, DecidableEq

/-- A frame of a stream, in bytes. cubeb reads a format it does not know as
16 bit samples. -/
def StreamParams.frameSizeInBytes (p : StreamParams) : Nat :=
  let sampleSize :=
    if p.format = CUBEB_SAMPLE_FLOAT32LE ∨ p.format = CUBEB_SAMPLE_FLOAT32BE then 4 else 2
  sampleSize * p.channels.toNat

structure StreamCreateParams where
  streamName : Option Bytes
  inputDevice : Nat
  inputStreamParams : Option StreamParams
  outputDevice : Nat
  outputStreamParams : Option StreamParams
  latencyFrames : UInt32
deriving Repr, DecidableEq

structure Device where
  outputName : Option Bytes
  inputName : Option Bytes
deriving Repr, DecidableEq

/-- The part of a `DeviceInfo` that the server looks at. -/
structure DeviceInfo where
  devid : Nat
deriving Repr, DecidableEq

inductive ServerMessage where
  | clientConnect
  | clientDisconnect
  | contextGetBackendId
  | contextGetMaxChannelCount
  | contextGetMinLatency (params : StreamParams)
  | contextGetPreferredSampleRate
  | contextGetSupportedInputProcessingParams
  | contextGetDeviceEnumeration (deviceType : UInt32)
  | contextSetupDeviceCollectionCallback
  | contextRegisterDeviceCollectionChanged (deviceType : UInt32) (enable : Bool)
  | streamCreate (params : StreamCreateParams)
  | streamInit (token : Nat)
  | streamDestroy (token : Nat)
  | streamStart (token : Nat)
  | streamStop (token : Nat)
  | streamGetPosition (token : Nat)
  | streamGetLatency (token : Nat)
  | streamGetInputLatency (token : Nat)
  | streamSetVolume (token : Nat) (volume : UInt32)
  | streamSetName (token : Nat) (name : Bytes)
  | streamGetCurrentDevice (token : Nat)
  | streamSetInputMute (token : Nat) (mute : Bool)
  | streamSetInputProcessingParams (token : Nat) (params : UInt32)
  | streamRegisterDeviceChangeCallback (token : Nat) (enable : Bool)
  | promoteThreadToRealTime (info : Bytes)
deriving Repr, DecidableEq

inductive ClientMessage where
  | clientConnected
  | clientDisconnected
  | contextBackendId (id : String)
  | contextMaxChannelCount (count : UInt32)
  | contextMinLatency (latency : UInt32)
  | contextPreferredSampleRate (rate : UInt32)
  | contextSupportedInputProcessingParams (params : UInt32)
  | contextEnumeratedDevices (devices : List DeviceInfo)
  | contextSetupDeviceCollectionCallback
  | contextRegisteredDeviceCollectionChanged
  | streamCreated (token : Nat) (shmAreaSize : UInt64)
  | streamInitialized
  | streamDestroyed
  | streamStarted
  | streamStopped
  | streamPosition (position : UInt64)
  | streamLatency (latency : UInt32)
  | streamInputLatency (latency : UInt32)
  | streamVolumeSet
  | streamNameSet
  | streamCurrentDevice (device : Device)
  | streamInputMuteSet
  | streamInputProcessingParamsSet
  | streamRegisterDeviceChangeCallback
  | threadPromoted
  | error (code : Int)
deriving Repr, DecidableEq

/-- What the server asks of the client of a stream. -/
inductive CallbackReq where
  | data (nframes : Int)
  | state (state : UInt32)
  | deviceChange
deriving Repr, DecidableEq

inductive CallbackResp where
  | data (frames : Int)
  | state
  | deviceChange
  | error (code : Int)
deriving Repr, DecidableEq

instance : AssociateHandleForMessage ServerMessage := ⟨fun _ => false⟩

instance : AssociateHandleForMessage ClientMessage where
  hasAssociatedHandle
    | .streamCreated .. | .streamInitialized | .contextSetupDeviceCollectionCallback => true
    | _ => false

open AssociateHandleForMessage

def Item.plain {α : Type} [AssociateHandleForMessage α] (body : α)
    (h : hasAssociatedHandle body = false) : Item α :=
  ⟨body, none, h.symm⟩

theorem Item.attached_some {α : Type} [AssociateHandleForMessage α] {body : α} (handle : Handle)
    (h : hasAssociatedHandle body = true) :
    (some handle).isSome = hasAssociatedHandle body := h.symm

def Item.owning {α : Type} [AssociateHandleForMessage α] (body : α) (handle : Handle)
    (h : hasAssociatedHandle body = true) : Item α :=
  ⟨body, some handle, Item.attached_some handle h⟩

def error (e : CubebError) : Item ClientMessage := .plain (.error e.code) rfl

end Audioipc

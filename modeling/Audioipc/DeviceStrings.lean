import Mathlib.Tactic.Abel
import Audioipc.Heap
import Audioipc.Lts
import Audioipc.Messages

/-!
# The strings of devices

The strings of a device cross the connection as bytes (`dup_str`), and become
C strings again that the application reads and later gives back: one `CString`
for each, made by `opt_str` and taken back with `from_raw`. `Device` and
`DeviceInfo` are converted field by field in both directions, and the
functions that give them back name the fields again.

`device_strings`: in every run of the calls that make and give back
collections and devices, whatever the messages and wherever `malloc` puts the
strings, nothing is freed that is not there, what is allocated is exactly what
the application has not given back, and it reads in it what the message said.
-/

namespace Audioipc

/-- A pointer, of which 0 is null. -/
abbrev Ptr := Nat

/-- `cubeb_device`, and `Device`, by what its strings are. -/
structure DeviceNames (σ : Type) where
  outputName : σ
  inputName : σ
deriving Repr, DecidableEq

/-- `cubeb_device_info`, and `DeviceInfo`, by what its strings are. -/
structure DeviceRecord (σ : Type) where
  devid : Nat
  deviceId : σ
  friendlyName : σ
  groupId : σ
  vendorName : σ
  deviceType : UInt32
  state : UInt32
  preferred : UInt32
  format : UInt32
  defaultFormat : UInt32
  maxChannels : UInt32
  defaultRate : UInt32
  maxRate : UInt32
  minRate : UInt32
  latencyLo : UInt32
  latencyHi : UInt32
deriving Repr, DecidableEq

/-- What is allocated: the bytes of a C string with the NUL, or the `Device` in
a `Box`. -/
inductive Block where
  | str (bytes : Bytes)
  | device (d : DeviceNames Ptr)
deriving Repr, DecidableEq

/-- The heap, with the addresses that `malloc` will return. -/
structure CMemory where
  heap : Heap Block
  supply : List Ptr

def malloc (b : Block) (m : CMemory) : Option (Ptr × CMemory) :=
  match m.supply with
  | p :: supply =>
      if p ≠ 0 ∧ m.heap p = none then some (p, ⟨m.heap.alloc p b, supply⟩) else none
  | [] => none

def strlen (bytes : Bytes) : Nat := (bytes.takeWhile (· ≠ 0)).length

/-- `dup_str`. `none` where the pointer is not to a string. -/
def dupStr (h : Heap Block) (p : Ptr) : Option (Option Bytes) :=
  if p = 0 then some none
  else
    match h p with
    | some (.str bytes) => some (some (bytes.takeWhile (· ≠ 0)))
    | _ => none

/-- `opt_str`. `CString::new` does not take bytes with a NUL. -/
def optStr (v : Option Bytes) (m : CMemory) : Option (Ptr × CMemory) :=
  match v with
  | some v => if 0 ∈ v then some (0, m) else malloc (.str (v ++ [0])) m
  | none => some (0, m)

/-- `CString::from_raw` of a pointer that is not null, and its drop: the length
is computed again. `none` where that is not what was allocated. -/
def dropStr (p : Ptr) (h : Heap Block) : Option (Heap Block) :=
  if p = 0 then some h
  else
    match h p with
    | some (.str bytes) => if strlen bytes + 1 = bytes.length then some (h.free p) else none
    | _ => none

namespace DeviceRecord

/-- `From<&cubeb::DeviceInfoRef> for DeviceInfo` -/
def ofFfi (h : Heap Block) (d : DeviceRecord Ptr) : Option (DeviceRecord (Option Bytes)) := do
  let deviceId ← dupStr h d.deviceId
  let friendlyName ← dupStr h d.friendlyName
  let groupId ← dupStr h d.groupId
  let vendorName ← dupStr h d.vendorName
  return { d with deviceId, friendlyName, groupId, vendorName }

/-- `From<DeviceInfo> for ffi::cubeb_device_info` -/
def toFfi (d : DeviceRecord (Option Bytes)) (m : CMemory) :
    Option (DeviceRecord Ptr × CMemory) := do
  let (deviceId, m) ← optStr d.deviceId m
  let (friendlyName, m) ← optStr d.friendlyName m
  let (groupId, m) ← optStr d.groupId m
  let (vendorName, m) ← optStr d.vendorName m
  return ({ d with deviceId, friendlyName, groupId, vendorName }, m)

/-- The body of the loop in `device_collection_destroy`. -/
def destroy (d : DeviceRecord Ptr) (h : Heap Block) : Option (Heap Block) := do
  let h ← dropStr d.deviceId h
  let h ← dropStr d.groupId h
  let h ← dropStr d.vendorName h
  dropStr d.friendlyName h

end DeviceRecord

namespace DeviceNames

/-- `From<&cubeb::DeviceRef> for Device` -/
def ofFfi (h : Heap Block) (d : DeviceNames Ptr) : Option (DeviceNames (Option Bytes)) := do
  let outputName ← dupStr h d.outputName
  let inputName ← dupStr h d.inputName
  return { outputName, inputName }

/-- `From<Device> for ffi::cubeb_device` -/
def toFfi (d : DeviceNames (Option Bytes)) (m : CMemory) : Option (DeviceNames Ptr × CMemory) := do
  let (outputName, m) ← optStr d.outputName m
  let (inputName, m) ← optStr d.inputName m
  return ({ outputName, inputName }, m)

/-- `Drop for Device` -/
def drop (d : DeviceNames Ptr) (h : Heap Block) : Option (Heap Block) := do
  let h ← dropStr d.inputName h
  dropStr d.outputName h

end DeviceNames

/-- `enumerate_devices`, of the devices in the response. -/
def enumerateDevices : List (DeviceRecord (Option Bytes)) → CMemory →
    Option (List (DeviceRecord Ptr) × CMemory)
  | [], m => some ([], m)
  | d :: ds, m => do
      let (d, m) ← d.toFfi m
      let (ds, m) ← enumerateDevices ds m
      return (d :: ds, m)

def deviceCollectionDestroy : List (DeviceRecord Ptr) → Heap Block → Option (Heap Block)
  | [], h => some h
  | d :: ds, h => do
      let h ← d.destroy h
      deviceCollectionDestroy ds h

/-- `current_device`, of the device in the response. -/
def currentDevice (d : DeviceNames (Option Bytes)) (m : CMemory) : Option (Ptr × CMemory) := do
  let (names, m) ← d.toFfi m
  malloc (.device names) m

/-- `device_destroy` of a pointer that is not null. -/
def deviceDestroy (p : Ptr) (h : Heap Block) : Option (Heap Block) :=
  match h p with
  | some (.device names) => (names.drop h).map fun h => h.free p
  | _ => none

/-! ## Strings -/

/-- What is left of the bytes of a message: those of a C string. -/
def cString (v : Option Bytes) : Option Bytes := v.filter fun b => !b.contains 0

/-- The block of a string that was made from the bytes. -/
def strBlocks (v : Option Bytes) (p : Ptr) : Multiset (Ptr × Block) :=
  match cString v with
  | some b => {(p, .str (b ++ [0]))}
  | none => 0

/-- The pointer is null where there is no string. -/
def DupOf (v : Option Bytes) (p : Ptr) : Prop := cString v = none ↔ p = 0

section Strings

variable {v : Option Bytes} {p : Ptr} {m m' : CMemory} {h : Heap Block}
  {s : Multiset (Ptr × Block)} {bytes : Bytes}

theorem cString_some {b : Bytes} (hv : cString v = some b) : 0 ∉ b := by
  have := (Option.filter_eq_some_iff.mp hv).2
  simpa using this

theorem takeWhile_nul {b : Bytes} (hb : 0 ∉ b) : (b ++ [0]).takeWhile (· ≠ 0) = b := by
  induction b with
  | nil => rfl
  | cons x b ih =>
      have hx : x ≠ 0 := fun h => hb (h ▸ List.mem_cons_self ..)
      rw [List.cons_append, List.takeWhile_cons_of_pos (by simpa using hx),
        ih fun h => hb (List.mem_cons_of_mem _ h)]

theorem malloc_spec {b : Block} (hs : malloc b m = some (p, m')) (ho : Heap.Owned m.heap s) :
    p ≠ 0 ∧ Heap.Owned m'.heap ({(p, b)} + s) := by
  unfold malloc at hs
  split at hs
  · split at hs <;> cases hs
    rename_i hfree
    exact ⟨hfree.1, ho.alloc hfree.2⟩
  · cases hs

theorem optStr_spec (hs : optStr v m = some (p, m')) (ho : Heap.Owned m.heap s) :
    DupOf v p ∧ Heap.Owned m'.heap (strBlocks v p + s) := by
  unfold optStr at hs
  cases v with
  | none =>
      cases hs
      exact ⟨⟨fun _ => rfl, fun _ => rfl⟩, by simpa [strBlocks, cString] using ho⟩
  | some b =>
      dsimp only at hs
      split at hs
      · rename_i hnul
        cases hs
        have hnone : cString (some b) = none := by simp [cString, Option.filter, hnul]
        exact ⟨⟨fun _ => rfl, fun _ => hnone⟩, by simpa [strBlocks, hnone] using ho⟩
      · rename_i hnul
        have hsome : cString (some b) = some b := by simp [cString, Option.filter, hnul]
        obtain ⟨hp, ho'⟩ := malloc_spec hs ho
        refine ⟨⟨fun h => ?_, fun h => absurd h hp⟩, ?_⟩
        · rw [hsome] at h
          cases h
        · rw [strBlocks, hsome]
          exact ho'

theorem dropStr_spec (hp : DupOf v p) (ho : Heap.Owned h (strBlocks v p + s)) :
    ∃ h', dropStr p h = some h' ∧ Heap.Owned h' s := by
  unfold dropStr
  unfold strBlocks at ho
  cases hv : cString v with
  | none =>
      rw [hv, zero_add] at ho
      exact ⟨h, if_pos (hp.mp hv), ho⟩
  | some b =>
      rw [hv] at ho
      have hne : p ≠ 0 := fun h0 => by rw [hp.mpr h0] at hv; cases hv
      refine ⟨h.free p, ?_, ho.free⟩
      have hlen : strlen (b ++ [0]) + 1 = (b ++ [0]).length := by
        rw [strlen, takeWhile_nul (cString_some hv), List.length_append]
        rfl
      rw [if_neg hne, ho.read]
      exact if_pos hlen

theorem dupStr_spec (hp : DupOf v p) (ho : Heap.Owned h (strBlocks v p + s)) :
    dupStr h p = some (cString v) := by
  unfold dupStr
  unfold strBlocks at ho
  cases hv : cString v with
  | none => exact if_pos (hp.mp hv)
  | some b =>
      rw [hv] at ho
      have hne : p ≠ 0 := fun h0 => by rw [hp.mpr h0] at hv; cases hv
      rw [if_neg hne, ho.read]
      exact congrArg (some ∘ some) (takeWhile_nul (cString_some hv))

theorem cString_dupStr (hd : dupStr h p = some v) : cString v = v := by
  unfold dupStr at hd
  split at hd
  · cases hd
    rfl
  · split at hd <;> cases hd
    refine Option.filter_eq_some_iff.mpr ⟨rfl, ?_⟩
    simp only [Bool.not_eq_true', List.contains_eq_mem, decide_eq_false_iff_not]
    intro hmem
    have hne := List.all_eq_true.mp List.all_takeWhile 0 hmem
    exact of_decide_eq_true hne rfl

end Strings

/-! ## Devices -/

/-- What the application reads in a device that was made from the message. -/
def DeviceRecord.cStrings (d : DeviceRecord (Option Bytes)) : DeviceRecord (Option Bytes) :=
  { d with
    deviceId := cString d.deviceId, friendlyName := cString d.friendlyName
    groupId := cString d.groupId, vendorName := cString d.vendorName }

/-- The response tells of a device of cubeb, with a handle for its id. -/
def DeviceRecord.FromCubeb (d : DeviceRecord (Option Bytes)) : Prop :=
  ∃ (h : Heap Block) (c : DeviceRecord Ptr) (e : DeviceRecord (Option Bytes)),
    c.ofFfi h = some e ∧ d = { e with devid := d.devid }

theorem DeviceRecord.cStrings_eq {d : DeviceRecord (Option Bytes)} (hd : d.FromCubeb) :
    d.cStrings = d := by
  obtain ⟨h, c, e, he, hd⟩ := hd
  unfold DeviceRecord.ofFfi at he
  obtain ⟨v₁, h₁, he⟩ := Option.bind_eq_some_iff.mp he
  obtain ⟨v₂, h₂, he⟩ := Option.bind_eq_some_iff.mp he
  obtain ⟨v₃, h₃, he⟩ := Option.bind_eq_some_iff.mp he
  obtain ⟨v₄, h₄, he⟩ := Option.bind_eq_some_iff.mp he
  cases he
  rw [hd]
  simp only [cStrings, cString_dupStr h₁, cString_dupStr h₂, cString_dupStr h₃, cString_dupStr h₄]

/-- A device in memory, beside the message it was made from. -/
structure HeldRecord where
  msg : DeviceRecord (Option Bytes)
  ffi : DeviceRecord Ptr

namespace HeldRecord

def blocks (d : HeldRecord) : Multiset (Ptr × Block) :=
  strBlocks d.msg.deviceId d.ffi.deviceId + strBlocks d.msg.friendlyName d.ffi.friendlyName +
    strBlocks d.msg.groupId d.ffi.groupId + strBlocks d.msg.vendorName d.ffi.vendorName

structure Ok (d : HeldRecord) : Prop where
  deviceId : DupOf d.msg.deviceId d.ffi.deviceId
  friendlyName : DupOf d.msg.friendlyName d.ffi.friendlyName
  groupId : DupOf d.msg.groupId d.ffi.groupId
  vendorName : DupOf d.msg.vendorName d.ffi.vendorName
  plain : d.ffi = { d.msg with
    deviceId := d.ffi.deviceId, friendlyName := d.ffi.friendlyName
    groupId := d.ffi.groupId, vendorName := d.ffi.vendorName }

variable {m m' : CMemory} {h : Heap Block} {s : Multiset (Ptr × Block)}

theorem toFfi_spec {d : DeviceRecord (Option Bytes)} {c : DeviceRecord Ptr}
    (hs : d.toFfi m = some (c, m')) (ho : Heap.Owned m.heap s) :
    Ok ⟨d, c⟩ ∧ Heap.Owned m'.heap (blocks ⟨d, c⟩ + s) := by
  unfold DeviceRecord.toFfi at hs
  obtain ⟨⟨p₁, m₁⟩, h₁, hs⟩ := Option.bind_eq_some_iff.mp hs
  obtain ⟨⟨p₂, m₂⟩, h₂, hs⟩ := Option.bind_eq_some_iff.mp hs
  obtain ⟨⟨p₃, m₃⟩, h₃, hs⟩ := Option.bind_eq_some_iff.mp hs
  obtain ⟨⟨p₄, m₄⟩, h₄, hs⟩ := Option.bind_eq_some_iff.mp hs
  cases hs
  obtain ⟨hp₁, ho₁⟩ := optStr_spec h₁ ho
  obtain ⟨hp₂, ho₂⟩ := optStr_spec h₂ ho₁
  obtain ⟨hp₃, ho₃⟩ := optStr_spec h₃ ho₂
  obtain ⟨hp₄, ho₄⟩ := optStr_spec h₄ ho₃
  refine ⟨⟨hp₁, hp₂, hp₃, hp₄, rfl⟩, ?_⟩
  convert ho₄ using 1
  simp only [blocks]
  abel

theorem destroy_spec {d : HeldRecord} (hd : d.Ok) (ho : Heap.Owned h (d.blocks + s)) :
    ∃ h', d.ffi.destroy h = some h' ∧ Heap.Owned h' s := by
  have ho₀ : Heap.Owned h (strBlocks d.msg.deviceId d.ffi.deviceId +
      (strBlocks d.msg.groupId d.ffi.groupId + (strBlocks d.msg.vendorName d.ffi.vendorName +
        (strBlocks d.msg.friendlyName d.ffi.friendlyName + s)))) := by
    convert ho using 1
    simp only [blocks]
    abel
  obtain ⟨h₁, hs₁, ho₁⟩ := dropStr_spec hd.deviceId ho₀
  obtain ⟨h₂, hs₂, ho₂⟩ := dropStr_spec hd.groupId ho₁
  obtain ⟨h₃, hs₃, ho₃⟩ := dropStr_spec hd.vendorName ho₂
  obtain ⟨h₄, hs₄, ho₄⟩ := dropStr_spec hd.friendlyName ho₃
  refine ⟨h₄, ?_, ho₄⟩
  simp only [DeviceRecord.destroy, hs₁, hs₂, hs₃, hs₄, Option.bind_eq_bind, Option.bind_some]

theorem ofFfi_spec {d : HeldRecord} (hd : d.Ok) (ho : Heap.Owned h (d.blocks + s)) :
    d.ffi.ofFfi h = some d.msg.cStrings := by
  have h₁ := dupStr_spec (s := strBlocks d.msg.friendlyName d.ffi.friendlyName +
    strBlocks d.msg.groupId d.ffi.groupId + strBlocks d.msg.vendorName d.ffi.vendorName + s)
    hd.deviceId (by convert ho using 1; simp only [blocks]; abel)
  have h₂ := dupStr_spec (s := strBlocks d.msg.deviceId d.ffi.deviceId +
    strBlocks d.msg.groupId d.ffi.groupId + strBlocks d.msg.vendorName d.ffi.vendorName + s)
    hd.friendlyName (by convert ho using 1; simp only [blocks]; abel)
  have h₃ := dupStr_spec (s := strBlocks d.msg.deviceId d.ffi.deviceId +
    strBlocks d.msg.friendlyName d.ffi.friendlyName +
      strBlocks d.msg.vendorName d.ffi.vendorName + s)
    hd.groupId (by convert ho using 1; simp only [blocks]; abel)
  have h₄ := dupStr_spec (s := strBlocks d.msg.deviceId d.ffi.deviceId +
    strBlocks d.msg.friendlyName d.ffi.friendlyName + strBlocks d.msg.groupId d.ffi.groupId + s)
    hd.vendorName (by convert ho using 1; simp only [blocks]; abel)
  simp only [DeviceRecord.ofFfi, h₁, h₂, h₃, h₄, Option.bind_eq_bind, Option.bind_some]
  rw [hd.plain]
  rfl

end HeldRecord

/-- What the application reads in a `cubeb_device` that was made from the
message. -/
def DeviceNames.cStrings (d : DeviceNames (Option Bytes)) : DeviceNames (Option Bytes) :=
  ⟨cString d.outputName, cString d.inputName⟩

def DeviceNames.FromCubeb (d : DeviceNames (Option Bytes)) : Prop :=
  ∃ (h : Heap Block) (c : DeviceNames Ptr), c.ofFfi h = some d

theorem DeviceNames.cStrings_eq {d : DeviceNames (Option Bytes)} (hd : d.FromCubeb) :
    d.cStrings = d := by
  obtain ⟨h, c, hd⟩ := hd
  unfold DeviceNames.ofFfi at hd
  obtain ⟨v₁, h₁, hd⟩ := Option.bind_eq_some_iff.mp hd
  obtain ⟨v₂, h₂, hd⟩ := Option.bind_eq_some_iff.mp hd
  cases hd
  simp only [cStrings, cString_dupStr h₁, cString_dupStr h₂]

/-- A `Device` in its box, beside the message it was made from. -/
structure HeldDevice where
  msg : DeviceNames (Option Bytes)
  names : DeviceNames Ptr
  ptr : Ptr

namespace HeldDevice

def blocks (d : HeldDevice) : Multiset (Ptr × Block) :=
  {(d.ptr, .device d.names)} + strBlocks d.msg.outputName d.names.outputName +
    strBlocks d.msg.inputName d.names.inputName

structure Ok (d : HeldDevice) : Prop where
  outputName : DupOf d.msg.outputName d.names.outputName
  inputName : DupOf d.msg.inputName d.names.inputName
  notNull : d.ptr ≠ 0

variable {m m' : CMemory} {h : Heap Block} {s : Multiset (Ptr × Block)}

theorem currentDevice_spec {d : DeviceNames (Option Bytes)} {p : Ptr}
    (hs : currentDevice d m = some (p, m')) (ho : Heap.Owned m.heap s) :
    ∃ names, Ok ⟨d, names, p⟩ ∧ Heap.Owned m'.heap (blocks ⟨d, names, p⟩ + s) := by
  unfold currentDevice DeviceNames.toFfi at hs
  obtain ⟨⟨names, m₁⟩, hs₁, hs⟩ := Option.bind_eq_some_iff.mp hs
  obtain ⟨⟨p₁, m₂⟩, h₁, hs₁⟩ := Option.bind_eq_some_iff.mp hs₁
  obtain ⟨⟨p₂, m₃⟩, h₂, hs₁⟩ := Option.bind_eq_some_iff.mp hs₁
  cases hs₁
  obtain ⟨hp₁, ho₁⟩ := optStr_spec h₁ ho
  obtain ⟨hp₂, ho₂⟩ := optStr_spec h₂ ho₁
  obtain ⟨hp, ho₃⟩ := malloc_spec hs ho₂
  refine ⟨⟨p₁, p₂⟩, ⟨hp₁, hp₂, hp⟩, ?_⟩
  convert ho₃ using 1
  simp only [blocks]
  abel

theorem read_spec {d : HeldDevice} (ho : Heap.Owned h (d.blocks + s)) :
    h d.ptr = some (.device d.names) := by
  refine Heap.Owned.read (s := strBlocks d.msg.outputName d.names.outputName +
    strBlocks d.msg.inputName d.names.inputName + s) ?_
  convert ho using 1
  rw [← Multiset.singleton_add]
  simp only [blocks]
  abel

theorem deviceDestroy_spec {d : HeldDevice} (hd : d.Ok) (ho : Heap.Owned h (d.blocks + s)) :
    ∃ h', deviceDestroy d.ptr h = some h' ∧ Heap.Owned h' s := by
  -- the strings first, then the box
  have ho₀ : Heap.Owned h (strBlocks d.msg.inputName d.names.inputName +
      (strBlocks d.msg.outputName d.names.outputName + ({(d.ptr, .device d.names)} + s))) := by
    convert ho using 1
    simp only [blocks]
    abel
  obtain ⟨h₁, hs₁, ho₁⟩ := dropStr_spec hd.inputName ho₀
  obtain ⟨h₂, hs₂, ho₂⟩ := dropStr_spec hd.outputName ho₁
  refine ⟨h₂.free d.ptr, ?_, Heap.Owned.free ho₂⟩
  unfold deviceDestroy
  rw [read_spec ho]
  simp only [DeviceNames.drop, hs₁, hs₂, Option.bind_eq_bind, Option.bind_some, Option.map_some]

theorem ofFfi_spec {d : HeldDevice} (hd : d.Ok) (ho : Heap.Owned h (d.blocks + s)) :
    d.names.ofFfi h = some d.msg.cStrings := by
  have h₁ := dupStr_spec (s := {(d.ptr, .device d.names)} +
    strBlocks d.msg.inputName d.names.inputName + s) hd.outputName (by
      convert ho using 1; simp only [blocks]; abel)
  have h₂ := dupStr_spec (s := {(d.ptr, .device d.names)} +
    strBlocks d.msg.outputName d.names.outputName + s) hd.inputName (by
      convert ho using 1; simp only [blocks]; abel)
  simp only [DeviceNames.ofFfi, h₁, h₂, Option.bind_eq_bind, Option.bind_some]
  rfl

end HeldDevice

/-- The devices of a collection, beside the messages they were made from. -/
abbrev HeldCollection := List HeldRecord

namespace HeldCollection

def blocks (c : HeldCollection) : Multiset (Ptr × Block) := (c.map HeldRecord.blocks).sum

variable {m m' : CMemory} {h : Heap Block} {s : Multiset (Ptr × Block)}

theorem enumerateDevices_spec {ds : List (DeviceRecord (Option Bytes))}
    {cs : List (DeviceRecord Ptr)} (hs : enumerateDevices ds m = some (cs, m'))
    (ho : Heap.Owned m.heap s) : ∃ c : HeldCollection, c.map HeldRecord.msg = ds ∧
      c.map HeldRecord.ffi = cs ∧ (∀ d ∈ c, d.Ok) ∧ Heap.Owned m'.heap (c.blocks + s) := by
  induction ds generalizing m s cs with
  | nil =>
      cases hs
      exact ⟨[], rfl, rfl, (fun d hd => by cases hd), by simpa [blocks] using ho⟩
  | cons d ds ih =>
      obtain ⟨⟨e, m₁⟩, h₁, hs⟩ := Option.bind_eq_some_iff.mp hs
      obtain ⟨⟨es, m₂⟩, h₂, hs⟩ := Option.bind_eq_some_iff.mp hs
      cases hs
      obtain ⟨hd, ho₁⟩ := HeldRecord.toFfi_spec h₁ ho
      obtain ⟨c, rfl, rfl, hc, ho₂⟩ := ih h₂ ho₁
      refine ⟨⟨d, e⟩ :: c, rfl, rfl, List.forall_mem_cons.mpr ⟨hd, hc⟩, ?_⟩
      convert ho₂ using 1
      simp only [blocks, List.map_cons, List.sum_cons]
      abel

theorem destroy_spec {c : HeldCollection} (hc : ∀ d ∈ c, d.Ok)
    (ho : Heap.Owned h (c.blocks + s)) :
    ∃ h', deviceCollectionDestroy (c.map HeldRecord.ffi) h = some h' ∧ Heap.Owned h' s := by
  induction c generalizing h with
  | nil => exact ⟨h, rfl, by simpa [blocks] using ho⟩
  | cons d c ih =>
      obtain ⟨hd, hc⟩ := List.forall_mem_cons.mp hc
      have ho₀ : Heap.Owned h (d.blocks + (blocks c + s)) := by
        convert ho using 1
        simp only [blocks, List.map_cons, List.sum_cons]
        abel
      obtain ⟨h₁, hs₁, ho₁⟩ := HeldRecord.destroy_spec hd ho₀
      obtain ⟨h₂, hs₂, ho₂⟩ := ih hc ho₁
      refine ⟨h₂, ?_, ho₂⟩
      simp only [List.map_cons, deviceCollectionDestroy, hs₁, hs₂, Option.bind_eq_bind,
        Option.bind_some]

theorem ofFfi_spec {c : HeldCollection} (hc : ∀ d ∈ c, d.Ok)
    (ho : Heap.Owned h (c.blocks + s)) : (c.map HeldRecord.ffi).mapM (DeviceRecord.ofFfi h) =
      some ((c.map HeldRecord.msg).map DeviceRecord.cStrings) := by
  induction c generalizing s with
  | nil => rfl
  | cons d c ih =>
      obtain ⟨hd, hc⟩ := List.forall_mem_cons.mp hc
      have hd' := HeldRecord.ofFfi_spec (s := blocks c + s) hd (by
        convert ho using 1
        simp only [blocks, List.map_cons, List.sum_cons]
        abel)
      have hc' := ih (s := d.blocks + s) hc (by
        convert ho using 1
        simp only [blocks, List.map_cons, List.sum_cons]
        abel)
      simp only [List.map_cons, List.mapM_cons, hd', hc', Option.bind_eq_bind, Option.bind_some]
      rfl

end HeldCollection

/-! ## Runs -/

/-- The memory of a client, and what its application has not given back.
`fault` is set when something is freed that is not there. -/
structure ClientMemory where
  heap : Heap Block
  collections : List HeldCollection
  devices : List HeldDevice
  fault : Bool

/-- `supply` is what `malloc` returns. -/
inductive MemoryAction where
  | enumerateDevices (msg : List (DeviceRecord (Option Bytes))) (supply : List Ptr)
  | collectionDestroy (i : Nat)
  | currentDevice (msg : DeviceNames (Option Bytes)) (supply : List Ptr)
  | deviceDestroy (i : Nat)

namespace ClientMemory

def new : ClientMemory := ⟨Heap.empty, [], [], false⟩

def step (s : ClientMemory) : MemoryAction → Option ClientMemory
  | .enumerateDevices msg supply =>
      (Audioipc.enumerateDevices msg ⟨s.heap, supply⟩).map fun (ffi, m) =>
        { s with
          heap := m.heap
          collections := s.collections ++ [List.zipWith HeldRecord.mk msg ffi] }
  | .collectionDestroy i =>
      s.collections[i]?.map fun held =>
        match deviceCollectionDestroy (held.map HeldRecord.ffi) s.heap with
        | some heap => { s with heap, collections := s.collections.eraseIdx i }
        | none => { s with fault := true }
  | .currentDevice msg supply =>
      match Audioipc.currentDevice msg ⟨s.heap, supply⟩ with
      | some (p, m) =>
          match m.heap p with
          | some (.device names) =>
              some { s with heap := m.heap, devices := s.devices ++ [⟨msg, names, p⟩] }
          | _ => none
      | none => none
  | .deviceDestroy i =>
      s.devices[i]?.map fun held =>
        match Audioipc.deviceDestroy held.ptr s.heap with
        | some heap => { s with heap, devices := s.devices.eraseIdx i }
        | none => { s with fault := true }

/-- All that the application has not given back. -/
def blocks (s : ClientMemory) : Multiset (Ptr × Block) :=
  (s.collections.map HeldCollection.blocks).sum + (s.devices.map HeldDevice.blocks).sum

structure Inv (s : ClientMemory) : Prop where
  fault : s.fault = false
  owned : Heap.Owned s.heap s.blocks
  collections : ∀ c ∈ s.collections, ∀ d ∈ c, d.Ok
  devices : ∀ d ∈ s.devices, d.Ok

variable {s s' : ClientMemory}

theorem inv_new : new.Inv where
  fault := rfl
  owned := Heap.owned_empty
  collections c hc := by cases hc
  devices d hd := by cases hd

theorem sum_map_eraseIdx {α M : Type} [AddCommMonoid M] (f : α → M) {l : List α} {i : Nat} {x : α}
    (h : l[i]? = some x) : (l.map f).sum = f x + ((l.eraseIdx i).map f).sum := by
  induction l generalizing i with
  | nil => cases h
  | cons y l ih =>
      cases i with
      | zero =>
          cases h
          rfl
      | succ i =>
          have hrest := ih (by simpa using h)
          rw [List.eraseIdx_cons_succ, List.map_cons, List.map_cons, List.sum_cons, List.sum_cons,
            hrest, add_left_comm]

theorem zipWith_held (c : HeldCollection) :
    List.zipWith HeldRecord.mk (c.map HeldRecord.msg) (c.map HeldRecord.ffi) = c := by
  induction c with
  | nil => rfl
  | cons d c ih => rw [List.map_cons, List.map_cons, List.zipWith_cons_cons, ih]

theorem step_inv {a : MemoryAction} (h : s.Inv) (hstep : s.step a = some s') : s'.Inv := by
  cases a with
  | enumerateDevices msg supply =>
      obtain ⟨⟨ffi, m⟩, hs, rfl⟩ := Option.map_eq_some_iff.mp hstep
      obtain ⟨c, rfl, rfl, hc, ho⟩ := HeldCollection.enumerateDevices_spec hs h.owned
      refine ⟨h.fault, ?_, fun c' hc' => ?_, h.devices⟩
      · dsimp only
        rw [zipWith_held]
        convert ho using 1
        simp only [blocks, List.map_append, List.sum_append, List.map_cons, List.map_nil,
          List.sum_cons, List.sum_nil]
        abel
      · dsimp only at hc'
        rw [zipWith_held] at hc'
        rcases List.mem_append.mp hc' with hc' | hc'
        · exact h.collections c' hc'
        · rwa [List.mem_singleton.mp hc']
  | collectionDestroy i =>
      obtain ⟨c, hget, rfl⟩ := Option.map_eq_some_iff.mp hstep
      have hc := h.collections c (List.mem_of_getElem? hget)
      obtain ⟨heap, hs, ho⟩ := HeldCollection.destroy_spec hc
        (s := ((s.collections.eraseIdx i).map HeldCollection.blocks).sum +
          (s.devices.map HeldDevice.blocks).sum) (by
            have ho := h.owned
            rw [blocks, sum_map_eraseIdx _ hget, add_assoc] at ho
            exact ho)
      rw [hs]
      exact ⟨h.fault, ho, fun c' hc' => h.collections c' (List.mem_of_mem_eraseIdx hc'), h.devices⟩
  | currentDevice msg supply =>
      simp only [step] at hstep
      split at hstep
      · rename_i p m hs
        obtain ⟨names, hok, ho⟩ := HeldDevice.currentDevice_spec hs h.owned
        rw [HeldDevice.read_spec ho] at hstep
        cases hstep
        refine ⟨h.fault, ?_, h.collections, fun d hd => ?_⟩
        · convert ho using 1
          simp only [blocks, List.map_append, List.sum_append, List.map_cons, List.map_nil,
            List.sum_cons, List.sum_nil]
          abel
        · rcases List.mem_append.mp hd with hd | hd
          · exact h.devices d hd
          · rwa [List.mem_singleton.mp hd]
      · cases hstep
  | deviceDestroy i =>
      obtain ⟨d, hget, rfl⟩ := Option.map_eq_some_iff.mp hstep
      have hd := h.devices d (List.mem_of_getElem? hget)
      obtain ⟨heap, hs, ho⟩ := HeldDevice.deviceDestroy_spec hd
        (s := (s.collections.map HeldCollection.blocks).sum +
          ((s.devices.eraseIdx i).map HeldDevice.blocks).sum) (by
            have ho := h.owned
            rw [blocks, sum_map_eraseIdx HeldDevice.blocks hget, add_left_comm] at ho
            exact ho)
      rw [hs]
      exact ⟨h.fault, ho, h.collections, fun d' hd' => h.devices d' (List.mem_of_mem_eraseIdx hd')⟩

/-- In every run, nothing is freed twice, what is allocated is what the
application has, and it reads what the messages said, byte for byte if they
told of devices of cubeb. -/
theorem device_strings {as : List MemoryAction} (hrun : Lts.runs step new as = some s) :
    s.fault = false ∧ Heap.Owned s.heap s.blocks ∧
      (∀ c ∈ s.collections,
        (c.map HeldRecord.ffi).mapM (DeviceRecord.ofFfi s.heap) =
            some ((c.map HeldRecord.msg).map DeviceRecord.cStrings) ∧
          ∀ d ∈ c, d.msg.FromCubeb → d.msg.cStrings = d.msg) ∧
      ∀ d ∈ s.devices, s.heap d.ptr = some (.device d.names) ∧
        d.names.ofFfi s.heap = some d.msg.cStrings ∧
          (d.msg.FromCubeb → d.msg.cStrings = d.msg) := by
  have hinv : s.Inv := Lts.runs_invariant (fun _ _ _ h hstep => step_inv h hstep) inv_new hrun
  refine ⟨hinv.fault, hinv.owned, fun c hc => ?_, fun d hd => ?_⟩
  · obtain ⟨i, hget⟩ := List.mem_iff_getElem?.mp hc
    refine ⟨HeldCollection.ofFfi_spec (hinv.collections c hc)
      (s := ((s.collections.eraseIdx i).map HeldCollection.blocks).sum +
        (s.devices.map HeldDevice.blocks).sum) ?_, fun _ _ => DeviceRecord.cStrings_eq⟩
    have ho := hinv.owned
    rw [blocks, sum_map_eraseIdx _ hget, add_assoc] at ho
    exact ho
  · obtain ⟨i, hget⟩ := List.mem_iff_getElem?.mp hd
    have ho := hinv.owned
    rw [blocks, sum_map_eraseIdx HeldDevice.blocks hget, add_left_comm] at ho
    exact ⟨HeldDevice.read_spec ho, HeldDevice.ofFfi_spec (hinv.devices d hd) ho,
      DeviceNames.cStrings_eq⟩

/-- An application gives back a collection, and has a device at the same
addresses. A string of the message is no C string. -/
theorem device_strings_run : ∃ s : ClientMemory, s.collections = [] ∧
    s.devices = [⟨⟨some [104, 105], some [0]⟩, ⟨8, 0⟩, 16⟩] ∧ s.fault = false ∧
      s.heap 16 = some (.device ⟨8, 0⟩) ∧
        DeviceNames.ofFfi s.heap ⟨8, 0⟩ = some ⟨some [104, 105], none⟩ := by
  let record : DeviceRecord (Option Bytes) :=
    ⟨1, some [97], none, some [98], some [99, 0], 1, 2, 0, 0, 0, 2, 48000, 48000, 48000, 0, 0⟩
  let script : List MemoryAction :=
    [.enumerateDevices [record] [8, 16], .collectionDestroy 0,
      .currentDevice ⟨some [104, 105], some [0]⟩ [8, 16]]
  let heap : Heap Block := ((((((Heap.empty.alloc 8 (.str [97, 0])).alloc 16 (.str [98, 0])).free
    8).free 16).alloc 8 (.str [104, 105, 0])).alloc 16 (.device ⟨8, 0⟩))
  have hrun : Lts.runs step new script =
      some ⟨heap, [], [⟨⟨some [104, 105], some [0]⟩, ⟨8, 0⟩, 16⟩], false⟩ := rfl
  obtain ⟨hfault, -, -, hdevices⟩ := device_strings hrun
  obtain ⟨hbox, hread, -⟩ := hdevices _ (List.mem_singleton_self _)
  exact ⟨_, rfl, rfl, hfault, hbox, hread⟩

end ClientMemory

end Audioipc

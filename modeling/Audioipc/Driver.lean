import Audioipc.Sys

/-!
# Messages with handles, handlers and the framed driver

The middle of `ipccore.rs`: `FramedDriver` turns the bytes and handles of a
connection into messages for a `Handler` and back.

A message is modelled as it is serialised, with its handle slot emptied,
next to the handle that travels outside the byte stream. `Item` ties the two
together: a handle is there exactly when `has_associated_handle` says so,
which is what `take_handle` and `set_local_handle` insist on.

Each of the two `while let` loops is given by its turns, since other threads
may act between them: `processItem` is a turn of `process_inbound`,
`flushItem` a turn of `flush_outbound`. A turn returns `Ok(true)` if the
loop goes on.
-/

namespace Audioipc

/-- `AssociateHandleForMessage`, on messages whose handle slot is emptied. -/
class AssociateHandleForMessage (α : Type) where
  hasAssociatedHandle : α → Bool

open AssociateHandleForMessage

/-- A message and the handle it owns, if it is of a kind that has one. -/
structure Item (α : Type) [AssociateHandleForMessage α] where
  body : α
  handle : Option Handle
  attached : handle.isSome = hasAssociatedHandle body

section Item

variable {α : Type} [AssociateHandleForMessage α]

@[ext] theorem Item.ext {m m' : Item α} (hbody : m.body = m'.body)
    (hhandle : m.handle = m'.handle) : m = m' := by
  cases m; cases m'; cases hbody; cases hhandle; rfl

def handlesOf (ms : List (Item α)) : List Handle := ms.filterMap Item.handle

@[simp] theorem handlesOf_nil : handlesOf ([] : List (Item α)) = [] := rfl

@[simp] theorem handlesOf_append (ms ms' : List (Item α)) :
    handlesOf (ms ++ ms') = handlesOf ms ++ handlesOf ms' := by
  simp [handlesOf]

theorem handlesOf_cons (m : Item α) (ms : List (Item α)) :
    handlesOf (m :: ms) = m.handle.toList ++ handlesOf ms := by
  cases hm : m.handle <;> simp [handlesOf, hm]

theorem length_handlesOf_take_le (ms : List (Item α)) (k : Nat) :
    (handlesOf (ms.take k)).length ≤ (handlesOf ms).length := by
  have h := congrArg (fun ms => (handlesOf ms).length) (List.take_append_drop k ms)
  simp only [handlesOf_append, List.length_append] at h
  omega

def framesOf [Bincode α] (ms : List (Item α)) : Bytes := frames (ms.map Item.body)

variable [Bincode α]

@[simp] theorem framesOf_nil : framesOf ([] : List (Item α)) = [] := rfl

@[simp] theorem framesOf_cons (m : Item α) (ms : List (Item α)) :
    framesOf (m :: ms) = frame (payload m.body) ++ framesOf ms := rfl

@[simp] theorem framesOf_append (ms ms' : List (Item α)) :
    framesOf (ms ++ ms') = framesOf ms ++ framesOf ms' := by
  simp [framesOf]

end Item

/-- The smallest message type with a kind that has a handle and one that has
none, for runs on concrete input. -/
instance : AssociateHandleForMessage Bool := ⟨id⟩

instance : Bincode Bool where
  serializeInto b := ([if b then 1 else 0], .ok ())
  deserialize bytes := .ok (bytes == [1])

instance : LawfulBincode Bool where
  deserialize_serializeInto := by
    intro b p h
    cases b <;> cases h <;> rfl

/-- The message of those runs that owns no handle. -/
def Item.bare : Item Bool := ⟨false, none, rfl⟩

/-! ## Handlers -/

/-- The `Handler` trait for handlers with state `H`. `E` is what the
environment chooses in a step: what a server does with a request, or what
the other threads that share the handler's state do (`other`). `none` means
there is no such step. A handler that panics gives the panic message.
`drop` is the drop of the handler. -/
structure HandlerOps (In Out H E : Type) [AssociateHandleForMessage In]
    [AssociateHandleForMessage Out] where
  consume : E → H → Item In → Option (Except String (Except IoError Unit) × H)
  produce : E → H → Option (Except IoError (Option (Item Out)) × H)
  other : E → H → Option H
  drop : H → H

structure FramedDriver (H : Type) where
  codec : LengthDelimitedCodec
  handler : H

/-! ## The turns of the two loops -/

section Turns

variable {In Out H E : Type} [AssociateHandleForMessage In] [AssociateHandleForMessage Out]

/-- Give a decoded message the next inbound handle, if it needs one. -/
def setLocalHandle (body : In) (inbound : ConnectionBuffer) :
    Exec (Item In × ConnectionBuffer) :=
  if h : hasAssociatedHandle body then
    match inbound.popHandle with
    | (none, _) => throw .inboundHandleExpected
    | (some handle, inbound) => return (⟨body, some handle, h.symm⟩, inbound)
  else
    return (⟨body, none, by simpa using h⟩, inbound)

/-- Queue the handle of a message that was just encoded. -/
def pushItemHandle (outbound : ConnectionBuffer) : Option Handle → Exec ConnectionBuffer
  | none => return outbound
  | some handle => outbound.pushHandle handle

/-- The outcome of a turn: what it returned, the driver and the buffer it
left, and the message it moved. After a panic the buffer is not looked at
again, and is given as it was. -/
structure Turn (α H : Type) [AssociateHandleForMessage α] where
  result : Exec (Except IoError Bool)
  driver : FramedDriver H
  buffer : ConnectionBuffer
  item : Option (Item α)

def FramedDriver.processItem [Bincode In] (ops : HandlerOps In Out H E) (e : E) (d : FramedDriver H)
    (inbound : ConnectionBuffer) : Option (Turn In H) :=
  match d.codec.decode In inbound.buf with
  | .error p => some ⟨throw p, d, inbound, none⟩
  | .ok (.error err, codec, buf) =>
      some ⟨return .error err, { d with codec }, { inbound with buf }, none⟩
  | .ok (.ok none, codec, buf) =>
      some ⟨return .ok false, { d with codec }, { inbound with buf }, none⟩
  | .ok (.ok (some body), codec, buf) =>
      match setLocalHandle body { inbound with buf } with
      | .error p => some ⟨throw p, d, inbound, none⟩
      | .ok (item, inbound') =>
          match ops.consume e d.handler item with
          | none => none
          | some (.error msg, handler) =>
              some ⟨throw (.handler msg), { d with handler }, inbound, none⟩
          | some (.ok r, handler) =>
              some ⟨return r.map fun _ => true, ⟨codec, handler⟩, inbound', some item⟩

def FramedDriver.flushItem [Bincode Out] (ops : HandlerOps In Out H E) (e : E) (d : FramedDriver H)
    (outbound : ConnectionBuffer) : Option (Turn Out H) :=
  match ops.produce e d.handler with
  | none => none
  | some (.error err, handler) =>
      some ⟨return .error err, { d with handler }, outbound, none⟩
  | some (.ok none, handler) =>
      some ⟨return .ok false, { d with handler }, outbound, none⟩
  | some (.ok (some item), handler) =>
      match d.codec.encode item.body outbound.buf with
      | .error p => some ⟨throw p, { d with handler }, outbound, none⟩
      | .ok (.error err, codec, buf) =>
          some ⟨return .error err, ⟨codec, handler⟩, { outbound with buf }, none⟩
      | .ok (.ok (), codec, buf) =>
          match pushItemHandle { outbound with buf } item.handle with
          | .error p => some ⟨throw p, { d with handler }, outbound, none⟩
          | .ok outbound' => some ⟨return .ok true, ⟨codec, handler⟩, outbound', some item⟩

/-- With its handle first in the queue, a message gets that handle. -/
theorem setLocalHandle_of_handle {m : Item In} {b : ConnectionBuffer} {hs : List Handle}
    (h : b.handles = m.handle.toList ++ hs) :
    ∃ b', setLocalHandle m.body b = .ok (m, b') ∧ b'.buf = b.buf ∧ b'.handles = hs := by
  obtain ⟨body, handle, attached⟩ := m
  cases handle with
  | none =>
      have hassoc : ¬ hasAssociatedHandle body = true := by simp [← attached]
      refine ⟨b, ?_, rfl, by simpa using h⟩
      simp [setLocalHandle, hassoc, pure, Except.pure]
  | some f =>
      have hassoc : hasAssociatedHandle body = true := by simp [← attached]
      have hhead : b.handles = f :: hs := by simpa using h
      refine ⟨b.popHandle.2, ?_, rfl, by simp [ConnectionBuffer.popHandle, hhead]⟩
      have hpop : b.popHandle = (some f, b.popHandle.2) := by
        simp [ConnectionBuffer.popHandle, hhead]
      unfold setLocalHandle
      rw [dif_pos hassoc, hpop]
      rfl

theorem setLocalHandle_handles {body : In} {b b' : ConnectionBuffer} {m : Item In}
    (h : setLocalHandle body b = .ok (m, b')) : b.handles = handlesOf [m] ++ b'.handles := by
  unfold setLocalHandle at h
  split at h
  · split at h
    · cases h
    · rename_i handle b₁ hpop
      cases h
      obtain ⟨hhead, rfl⟩ := Prod.mk.inj hpop
      obtain ⟨rest, hrest⟩ := List.head?_eq_some_iff.mp hhead
      change b.handles = handle :: b.handles.tail
      rw [hrest]
      rfl
  · cases h
    rfl

/-- A turn of `process_inbound` takes the handle of its message off the queue. -/
theorem FramedDriver.processItem_handles [Bincode In] {ops : HandlerOps In Out H E} {e : E}
    {d : FramedDriver H} {b : ConnectionBuffer} {t : Turn In H}
    (h : d.processItem ops e b = some t) :
    b.handles = handlesOf t.item.toList ++ t.buffer.handles := by
  unfold processItem at h
  split at h
  · cases h
    rfl
  · cases h
    rfl
  · cases h
    rfl
  · split at h
    · cases h
      rfl
    · rename_i hset
      split at h
      · cases h
      · cases h
        rfl
      · cases h
        have hhandles := setLocalHandle_handles hset
        exact hhandles

/-- What a turn of `process_inbound` asks of the handler, whatever is in the
buffer. -/
theorem FramedDriver.processItem_handler [Bincode In] {ops : HandlerOps In Out H E} {e : E}
    {d : FramedDriver H} {b : ConnectionBuffer} {t : Turn In H}
    (h : d.processItem ops e b = some t) :
    (t.item = none ∧ t.driver.handler = d.handler ∧ t.result ≠ .ok (.ok true)) ∨
    (∃ m msg, t.item = none ∧ t.result = .error (.handler msg) ∧
      ops.consume e d.handler m = some (.error msg, t.driver.handler)) ∨
    (∃ m r, t.item = some m ∧ t.result = .ok (r.map fun _ => true) ∧
      ops.consume e d.handler m = some (.ok r, t.driver.handler)) := by
  unfold processItem at h
  split at h
  · cases h
    exact Or.inl ⟨rfl, rfl, nofun⟩
  · cases h
    exact Or.inl ⟨rfl, rfl, nofun⟩
  · cases h
    exact Or.inl ⟨rfl, rfl, nofun⟩
  · split at h
    · cases h
      exact Or.inl ⟨rfl, rfl, nofun⟩
    · split at h
      · cases h
      · rename_i hcons
        cases h
        exact Or.inr (Or.inl ⟨_, _, rfl, rfl, hcons⟩)
      · rename_i hcons
        cases h
        exact Or.inr (Or.inr ⟨_, _, rfl, rfl, hcons⟩)

theorem pushItemHandle_ok {b b' : ConnectionBuffer} {h : Option Handle}
    (hp : pushItemHandle b h = .ok b') :
    b'.buf = b.buf ∧ b'.handles = b.handles ++ h.toList := by
  cases h with
  | none => cases hp; simp
  | some h => exact ConnectionBuffer.pushHandle_ok hp

theorem pushItemHandle_error {b : ConnectionBuffer} {h : Option Handle} {p : Panic}
    (hp : pushItemHandle b h = .error p) :
    p = .handleQueueFull ∧ h.isSome ∧ HANDLE_QUEUE_LIMIT ≤ b.handles.length := by
  cases h with
  | none => cases hp
  | some h =>
      obtain ⟨rfl, hle⟩ := ConnectionBuffer.pushHandle_error hp
      exact ⟨rfl, rfl, hle⟩

/-- A turn of `flush_outbound`: the handler has nothing to send or fails, or
its message is lost to an error or a panic, or its frame and its handle are
appended to the outbound buffer. -/
theorem FramedDriver.flushItem_cases [Bincode Out] {ops : HandlerOps In Out H E} {e : E}
    {d : FramedDriver H} {b : ConnectionBuffer} {t : Turn Out H}
    (h : d.flushItem ops e b = some t) :
    t.driver.codec.state = d.codec.state ∧
    ((ops.produce e d.handler = some (.ok none, t.driver.handler) ∧
        t.item = none ∧ t.buffer = b ∧ t.result = .ok (.ok false)) ∨
     (∃ err, ops.produce e d.handler = some (.error err, t.driver.handler) ∧
        t.item = none ∧ t.buffer = b ∧ t.result = .ok (.error err)) ∨
     (∃ m, ops.produce e d.handler = some (.ok (some m), t.driver.handler) ∧
        t.item = none ∧ t.buffer = b ∧
        ((∃ err, t.result = .ok (.error err)) ∨
         t.result = .error .encodedLen ∨
         (t.result = .error .handleQueueFull ∧ m.handle.isSome ∧
            HANDLE_QUEUE_LIMIT ≤ b.handles.length))) ∨
     (∃ m, ops.produce e d.handler = some (.ok (some m), t.driver.handler) ∧
        t.item = some m ∧ t.result = .ok (.ok true) ∧ Encodes m.body ∧
        t.buffer.buf = b.buf ++ frame (payload m.body) ∧
        t.buffer.handles = b.handles ++ m.handle.toList)) := by
  unfold flushItem at h
  split at h
  · cases h
  · rename_i hprod
    cases h
    exact ⟨rfl, Or.inr (Or.inl ⟨_, hprod, rfl, rfl, rfl⟩)⟩
  · rename_i hprod
    cases h
    exact ⟨rfl, Or.inl ⟨hprod, rfl, rfl, rfl⟩⟩
  · rename_i item handler hprod
    split at h
    · rename_i henc
      cases h
      cases LengthDelimitedCodec.encode_error henc
      exact ⟨rfl, Or.inr (Or.inr (Or.inl ⟨_, hprod, rfl, rfl, Or.inr (Or.inl rfl)⟩))⟩
    · rename_i henc
      cases h
      rcases LengthDelimitedCodec.encode_cases henc with ⟨hr, -⟩ | ⟨_, -, rfl, hstate⟩
      · cases hr
      · exact ⟨hstate, Or.inr (Or.inr (Or.inl ⟨_, hprod, rfl, rfl, Or.inl ⟨_, rfl⟩⟩))⟩
    · rename_i henc
      rcases LengthDelimitedCodec.encode_cases henc with ⟨-, hm, rfl, rfl⟩ | ⟨_, hr, -⟩
      · split at h
        · rename_i hpush
          cases h
          obtain ⟨rfl, hsome, hfull⟩ := pushItemHandle_error hpush
          exact ⟨rfl, Or.inr (Or.inr (Or.inl
            ⟨_, hprod, rfl, rfl, Or.inr (Or.inr ⟨rfl, hsome, hfull⟩)⟩))⟩
        · rename_i hpush
          cases h
          obtain ⟨hbuf, hhandles⟩ := pushItemHandle_ok hpush
          exact ⟨rfl, Or.inr (Or.inr (Or.inr ⟨item, hprod, rfl, rfl, hm, hbuf, hhandles⟩))⟩
      · cases hr

theorem FramedDriver.flushItem_full [Bincode Out] {ops : HandlerOps In Out H E} {e : E}
    {d : FramedDriver H} {b : ConnectionBuffer} {t : Turn Out H} {m : Item Out} {h : H}
    (hprod : ops.produce e d.handler = some (.ok (some m), h))
    (ht : d.flushItem ops e b = some t) : t.result = .error .handleQueueFull ↔
      Encodes m.body ∧ m.handle.isSome ∧ HANDLE_QUEUE_LIMIT ≤ b.handles.length := by
  unfold flushItem at ht
  rw [hprod] at ht
  dsimp only at ht
  by_cases hm : Encodes m.body
  · rw [LengthDelimitedCodec.encode_of_encodes hm] at ht
    dsimp only at ht
    split at ht
    · rename_i hpush
      cases ht
      obtain ⟨rfl, hsome, hfull⟩ := pushItemHandle_error hpush
      exact ⟨fun _ => ⟨hm, hsome, hfull⟩, fun _ => rfl⟩
    · rename_i b' hpush
      cases ht
      refine ⟨nofun, fun ⟨_, hsome, hfull⟩ => ?_⟩
      obtain ⟨handle, hhandle⟩ := Option.isSome_iff_exists.mp hsome
      have hle := b'.handles_le
      rw [(pushItemHandle_ok hpush).2, hhandle] at hle
      simp only [Option.toList_some, List.length_append, List.length_singleton] at hle
      exact absurd hfull (by omega)
  · have hlost : t.result ≠ .error .handleQueueFull := by
      split at ht
      · rename_i henc
        cases ht
        cases LengthDelimitedCodec.encode_error henc
        nofun
      · cases ht
        nofun
      · rename_i henc
        rcases LengthDelimitedCodec.encode_cases henc with ⟨-, henc, -⟩ | ⟨_, hr, -⟩
        · exact absurd henc hm
        · cases hr
    exact ⟨fun h => absurd h hlost, fun h => absurd h.1 hm⟩

end Turns

end Audioipc

import Mathlib.Data.Multiset.OrderedMonoid
import Mathlib.Tactic.Abel
import Audioipc.Driver
import Audioipc.Lts

/-!
# Handles between Windows processes

On Windows a pipe carries only bytes. The sender of a message with a handle
duplicates it into the target process before the message is encoded
(`send_to_target`), and the message carries the value that the duplicate has
there. Until the message is sent, the duplicate belongs to the sender's
`RemoteHandle`, which closes it in the other process if the connection
fails; `mark_sent` gives it up. The receiver makes an owned handle of any
value that it decodes.

If both took a duplicate for theirs, one would close what the other uses, or
an unrelated handle that has got the same value since. `mark_sent` is called
for all queued handles after any successful write, so a message of which the
receiver can have a single byte has been marked (`Inv.stream`): every
duplicate has one owner, and a close closes what it is meant for
(`remote_handles`). The other side of this is that a duplicate whose message
is cut off by the end of the connection belongs to nobody.
-/

namespace Audioipc

open AssociateHandleForMessage

/-! ## The states of a handle -/

/-- `PlatformHandleType` on Windows, as it is serialised. -/
abbrev HandleValue := Int64

def INVALID_HANDLE_VALUE : HandleValue := -1

def validHandle (handle : HandleValue) : Bool := handle != INVALID_HANDLE_VALUE && handle != 0

/-- `RemoteHandle` on Windows. -/
structure RemoteHandle where
  handle : HandleValue
  target : UInt32
  targetHandle : Option HandleValue
deriving Repr, DecidableEq

def RemoteHandle.markSent (h : RemoteHandle) : RemoteHandle := { h with targetHandle := none }

inductive SerializableHandle where
  | owned (handle : HandleValue) (targetPid : Option UInt32)
  | serializableValue (handle : HandleValue)
  | empty
deriving Repr, DecidableEq

namespace SerializableHandle

/-- `SerializableHandle::take_handle`. -/
def takeHandle : SerializableHandle → Except String HandleValue × SerializableHandle
  | .owned handle none => (.ok handle, .empty)
  | .owned _ (some _) => (.error "assertion failed: target_pid.is_none()", .empty)
  | _ => (.error "take_handle called in invalid state", .empty)

def takeHandleForSend : SerializableHandle → Except String RemoteHandle × SerializableHandle
  | .owned handle (some targetPid) => (.ok ⟨handle, targetPid, none⟩, .empty)
  | .owned _ none => (.error "target process required", .empty)
  | _ => (.error "take_handle_for_send called in invalid state", .empty)

/-- `new_owned`, with the assertion of `PlatformHandle::new`. -/
def newOwned (handle : HandleValue) : Except String SerializableHandle :=
  if validHandle handle then .ok (.owned handle none)
  else .error "assertion failed: valid_handle(raw)"

def makeOwned : SerializableHandle → Except String SerializableHandle
  | .serializableValue handle => newOwned handle
  | _ => .error "make_owned called in invalid state"

def getSerializableValue : SerializableHandle → Except String HandleValue
  | .serializableValue handle => .ok handle
  | .empty => .ok INVALID_HANDLE_VALUE
  | .owned .. => .error "get_remote_handle called in invalid state"

end SerializableHandle

/-- A message with its handle slot. -/
structure HandleMessage (α : Type) [AssociateHandleForMessage α] where
  body : α
  slot : Option SerializableHandle
  attached : slot.isSome = hasAssociatedHandle body

/-- What is serialised of a message. -/
structure WireMessage (α : Type) [AssociateHandleForMessage α] where
  body : α
  value : Option HandleValue
  attached : value.isSome = hasAssociatedHandle body

section Messages

variable {α : Type} [AssociateHandleForMessage α]

def HandleMessage.setSlot (m : HandleMessage α) (slot : SerializableHandle)
    (h : hasAssociatedHandle m.body = true) : HandleMessage α :=
  ⟨m.body, some slot, by rw [h]; rfl⟩

/-- `Serialize for SerializableHandle`, in a message. -/
def HandleMessage.serialize (m : HandleMessage α) : Except String (WireMessage α) :=
  match h : m.slot with
  | none => .ok ⟨m.body, none, by rw [← m.attached, h]; rfl⟩
  | some slot =>
      match slot.getSerializableValue with
      | .error msg => .error msg
      | .ok value => .ok ⟨m.body, some value, by rw [← m.attached, h]; rfl⟩

/-- `SerializableHandleVisitor::visit_i64`, in a message. -/
def WireMessage.deserialize (m : WireMessage α) : HandleMessage α :=
  ⟨m.body, m.value.map .serializableValue, by rw [← m.attached, Option.isSome_map]⟩

/-- The values that messages carry. -/
def valuesOf (ms : List (WireMessage α)) : Multiset HandleValue :=
  (ms.filterMap WireMessage.value : List HandleValue)

end Messages

/-! ## Two processes and the pipe between them -/

/-- A panic of the codec or the handle queue, or one of a handle slot. -/
inductive HandlePanic where
  | at (p : Panic)
  | slot (msg : String)
deriving Repr, DecidableEq

/-- The connection that sends messages with handles, in its process, and the
connection that receives them, in the process `targetPid`. `source` and
`target` are the handle tables of the two. `locals` are the handles of the
sender that are not in its connection, `owned` those of the receiver that came
with messages, `others` those that did not, and `unclosed` the duplicates that
the sender could not close. `sending` and `receiving` are whether the
connections are up. -/
structure HandleLink (α : Type) [AssociateHandleForMessage α] where
  targetPid : UInt32
  sending : Bool
  encoder : LengthDelimitedCodec
  outbound : Bytes
  queue : List RemoteHandle
  locals : Multiset HandleValue
  source : Multiset HandleValue
  wire : Bytes
  receiving : Bool
  decoder : LengthDelimitedCodec
  inbound : Bytes
  owned : Multiset HandleValue
  others : Multiset HandleValue
  target : Multiset HandleValue
  sent : List (WireMessage α)
  received : List (WireMessage α)
  unclosed : Multiset HandleValue
  panic : Option HandlePanic

/-- `duplicate` is the outcome of `send_to_target`, and `closes` is which
`close_target_handle` calls succeed. `release`: the receiver is done with the
handle of a message. -/
inductive HandleAction (α : Type) [AssociateHandleForMessage α] where
  | flushItem (m : HandleMessage α) (duplicate : Option HandleValue)
      (closes : HandleValue → Bool)
  | sendMsg (r : Except IoError Nat) (closes : HandleValue → Bool)
  | removeSender (closes : HandleValue → Bool)
  | recvMsg (n : Nat)
  | processItem
  | removeReceiver
  | release (handle : HandleValue)
  | openLocal (handle : HandleValue)
  | closeLocal (handle : HandleValue)
  | openOther (handle : HandleValue)
  | closeOther (handle : HandleValue)

namespace HandleLink

variable {α : Type} [AssociateHandleForMessage α]

def start (α : Type) [AssociateHandleForMessage α] (targetPid : UInt32) : HandleLink α where
  targetPid
  sending := true
  encoder := .default
  outbound := []
  queue := []
  locals := 0
  source := 0
  wire := []
  receiving := true
  decoder := .default
  inbound := []
  owned := 0
  others := 0
  target := 0
  sent := []
  received := []
  unclosed := 0
  panic := none

/-- The kernel gives a handle a value that the table does not have. -/
def fresh (table : Multiset HandleValue) (handle : HandleValue) : Bool :=
  validHandle handle && handle ∉ table

/-- The handler makes the slot of a message with `SerializableHandle::new`, of
a handle that it owns, for the process of its client. -/
def made (s : HandleLink α) (m : HandleMessage α) : Bool :=
  match m.slot with
  | none => true
  | some (.owned handle (some targetPid)) => handle ∈ s.locals && targetPid == s.targetPid
  | _ => false

/-- `RemoteHandle::drop`. -/
def dropRemote (closes : HandleValue → Bool) (s : HandleLink α) (h : RemoteHandle) :
    HandleLink α :=
  let s := { s with source := s.source.erase h.handle }
  match h.targetHandle with
  | none => s
  | some v =>
      if closes v then { s with target := s.target.erase v }
      else { s with unclosed := v ::ₘ s.unclosed }

def dropRemotes (closes : HandleValue → Bool) (s : HandleLink α) (hs : List RemoteHandle) :
    HandleLink α :=
  hs.foldl (dropRemote closes) s

/-- The connection is removed, and its outbound buffer dropped. -/
def removeSender (closes : HandleValue → Bool) (s : HandleLink α) : HandleLink α :=
  { dropRemotes closes s s.queue with sending := false, outbound := [], queue := [] }

def removeReceiver (s : HandleLink α) : HandleLink α := { s with receiving := false }

/-- The rest of `flush_outbound`'s turn, once the handle of the message is on
its way: `encode` and `push_handle`. -/
def encodeItem [Bincode (WireMessage α)] (closes : HandleValue → Bool) (s : HandleLink α)
    (m : HandleMessage α) (handle : Option RemoteHandle) : HandleLink α :=
  let fails (s : HandleLink α) := (dropRemotes closes s handle.toList).removeSender closes
  match m.serialize with
  | .error msg => fails { s with panic := some (.slot msg) }
  | .ok wire =>
      match s.encoder.encode wire s.outbound with
      | .error p => fails { s with panic := some (.at p) }
      | .ok (.error _, encoder, outbound) => fails { s with encoder, outbound }
      | .ok (.ok (), encoder, outbound) =>
          if s.queue.length + handle.toList.length ≤ HANDLE_QUEUE_LIMIT then
            { s with
              encoder, outbound, queue := s.queue ++ handle.toList, sent := s.sent ++ [wire] }
          else fails { s with encoder, outbound, panic := some (.at .handleQueueFull) }

/-- A turn of `flush_outbound` on Windows, with the message that the handler
produces. -/
def flushItem [Bincode (WireMessage α)] (closes : HandleValue → Bool) (s : HandleLink α)
    (m : HandleMessage α) (duplicate : Option HandleValue) : Option (HandleLink α) :=
  if h : hasAssociatedHandle m.body then
    match m.slot with
    | none => none
    | some slot =>
        match slot.takeHandleForSend with
        | (.error msg, _) => some ({ s with panic := some (.slot msg) }.removeSender closes)
        | (.ok handle, _) =>
            let s := { s with locals := s.locals.erase handle.handle }
            match duplicate with
            | none => some ((dropRemote closes s handle).removeSender closes)
            | some v =>
                if fresh s.target v then
                  some ({ s with target := v ::ₘ s.target }.encodeItem closes
                    (m.setSlot (.serializableValue v) h) (some { handle with targetHandle := v }))
                else none
  else some (s.encodeItem closes m none)

/-- `send_msg`, and `send_outbound`'s use of its result. -/
def sendMsg (closes : HandleValue → Bool) (s : HandleLink α) : Except IoError Nat →
    Option (HandleLink α)
  | .ok n =>
      if n ≤ s.outbound.length then
        let s' := { dropRemotes closes s (s.queue.map RemoteHandle.markSent) with
          outbound := s.outbound.drop n, wire := s.wire ++ s.outbound.take n, queue := [] }
        some (if n = 0 then s'.removeSender closes else s')
      else none
  | .error e => some (if e.transient then s else s.removeSender closes)

/-- A turn of `process_inbound` on Windows. -/
def processItem [Bincode (WireMessage α)] (s : HandleLink α) : HandleLink α :=
  match s.decoder.decode (WireMessage α) s.inbound with
  | .error p => { s with panic := some (.at p) }.removeReceiver
  | .ok (.error _, decoder, inbound) => { s with decoder, inbound }.removeReceiver
  | .ok (.ok none, decoder, inbound) => { s with decoder, inbound }
  | .ok (.ok (some wire), decoder, inbound) =>
      match wire.deserialize.slot.map SerializableHandle.makeOwned with
      | none => { s with decoder, inbound, received := s.received ++ [wire] }
      | some (.error msg) => { s with panic := some (.slot msg) }.removeReceiver
      | some (.ok slot) =>
          -- whoever the message goes to takes the handle, or drops it with the message
          match slot.takeHandle with
          | (.error msg, _) => { s with panic := some (.slot msg) }.removeReceiver
          | (.ok handle, _) =>
              { s with
                decoder, inbound, received := s.received ++ [wire], owned := handle ::ₘ s.owned }

def step [Bincode (WireMessage α)] (s : HandleLink α) : HandleAction α → Option (HandleLink α)
  | .flushItem m duplicate closes =>
      if s.sending && s.made m then s.flushItem closes m duplicate else none
  | .sendMsg r closes =>
      if s.sending && !s.outbound.isEmpty then s.sendMsg closes r else none
  | .removeSender closes => if s.sending then some (s.removeSender closes) else none
  | .recvMsg n =>
      if s.receiving && n ≤ s.wire.length then
        some { s with inbound := s.inbound ++ s.wire.take n, wire := s.wire.drop n }
      else none
  | .processItem => if s.receiving then some s.processItem else none
  | .removeReceiver => if s.receiving then some s.removeReceiver else none
  | .release handle =>
      if handle ∈ s.owned then
        some { s with owned := s.owned.erase handle, target := s.target.erase handle }
      else none
  | .openLocal handle =>
      if fresh s.source handle then
        some { s with locals := handle ::ₘ s.locals, source := handle ::ₘ s.source }
      else none
  | .closeLocal handle =>
      if handle ∈ s.locals then
        some { s with locals := s.locals.erase handle, source := s.source.erase handle }
      else none
  | .openOther handle =>
      if fresh s.target handle then
        some { s with others := handle ::ₘ s.others, target := handle ::ₘ s.target }
      else none
  | .closeOther handle =>
      if handle ∈ s.others then
        some { s with others := s.others.erase handle, target := s.target.erase handle }
      else none

/-! ## The accounts of the two handle tables -/

/-- The duplicates that remote handles still own. -/
def targetsOf (hs : List RemoteHandle) : Multiset HandleValue :=
  (hs.filterMap RemoteHandle.targetHandle : List HandleValue)

def handlesOf (hs : List RemoteHandle) : Multiset HandleValue :=
  (hs.map RemoteHandle.handle : List HandleValue)

/-- Every open handle has one owner: `queue` are the remote handles of the
sender, `transit` the duplicates that have been marked as sent and have not
arrived. -/
structure Balanced (s : HandleLink α) (queue : List RemoteHandle)
    (transit : Multiset HandleValue) : Prop where
  source : s.source = s.locals + handlesOf queue
  target : s.target = s.others + targetsOf queue + transit + s.owned + s.unclosed
  sourceNodup : s.source.Nodup
  targetNodup : s.target.Nodup
  valid : ∀ v ∈ s.target, validHandle v = true

variable {s s' : HandleLink α} {queue : List RemoteHandle} {transit : Multiset HandleValue}

theorem targetsOf_cons (h : RemoteHandle) (hs : List RemoteHandle) :
    targetsOf (h :: hs) = (h.targetHandle.toList : Multiset HandleValue) + targetsOf hs := by
  cases ht : h.targetHandle <;> simp [targetsOf, ht]

theorem handlesOf_cons (h : RemoteHandle) (hs : List RemoteHandle) :
    handlesOf (h :: hs) = h.handle ::ₘ handlesOf hs := rfl

theorem targetsOf_append (hs hs' : List RemoteHandle) :
    targetsOf (hs ++ hs') = targetsOf hs + targetsOf hs' := by
  simp [targetsOf]

theorem handlesOf_append (hs hs' : List RemoteHandle) :
    handlesOf (hs ++ hs') = handlesOf hs + handlesOf hs' := by
  simp [handlesOf]

theorem targetsOf_markSent (hs : List RemoteHandle) :
    targetsOf (hs.map RemoteHandle.markSent) = 0 := by
  induction hs with
  | nil => rfl
  | cons h hs ih => rw [List.map_cons, targetsOf_cons, ih]; rfl

theorem handlesOf_markSent (hs : List RemoteHandle) :
    handlesOf (hs.map RemoteHandle.markSent) = handlesOf hs := by
  simp only [handlesOf, List.map_map]
  rfl

/-- A remote handle closes its own handle, and its duplicate if it has one. -/
theorem Balanced.dropRemote {h : RemoteHandle} {closes : HandleValue → Bool}
    (hb : Balanced s (h :: queue) transit) :
    Balanced (dropRemote closes s h) queue transit := by
  have hsource : s.source.erase h.handle = s.locals + handlesOf queue := by
    rw [hb.source, handlesOf_cons, Multiset.add_cons, Multiset.erase_cons_head]
  have hnodup := hb.sourceNodup.erase h.handle
  have htarget := hb.target
  rw [targetsOf_cons] at htarget
  unfold HandleLink.dropRemote
  cases ht : h.targetHandle with
  | none =>
      rw [ht] at htarget
      exact ⟨hsource, by simpa using htarget, hnodup, hb.targetNodup, hb.valid⟩
  | some v =>
      rw [ht] at htarget
      have htarget' : s.target =
          v ::ₘ (s.others + targetsOf queue + transit + s.owned + s.unclosed) := by
        rw [htarget, ← Multiset.singleton_add]
        simp only [Option.toList_some, Multiset.coe_singleton]
        abel
      dsimp only
      split
      · refine ⟨hsource, ?_, hnodup, hb.targetNodup.erase v, fun w hw => ?_⟩
        · rw [htarget', Multiset.erase_cons_head]
        · exact hb.valid w (Multiset.mem_of_mem_erase hw)
      · refine ⟨hsource, ?_, hnodup, hb.targetNodup, hb.valid⟩
        rw [htarget', Multiset.add_cons]

theorem Balanced.duplicate {h : RemoteHandle} {v : HandleValue}
    (hb : Balanced s ({ h with targetHandle := none } :: queue) transit)
    (hvalid : validHandle v = true) (hfresh : v ∉ s.target) :
    Balanced { s with target := v ::ₘ s.target } ({ h with targetHandle := some v } :: queue)
      transit where
  source := hb.source
  target := by
    have htarget := hb.target
    rw [targetsOf_cons] at htarget ⊢
    dsimp only
    rw [htarget, ← Multiset.singleton_add]
    simp only [Option.toList_some, Option.toList_none, Multiset.coe_singleton, Multiset.coe_nil]
    abel
  sourceNodup := hb.sourceNodup
  targetNodup := Multiset.nodup_cons.mpr ⟨hfresh, hb.targetNodup⟩
  valid w hw := by
    rcases Multiset.mem_cons.mp hw with rfl | hold
    · exact hvalid
    · exact hb.valid w hold

theorem Balanced.dropRemotes (closes : HandleValue → Bool) (hs : List RemoteHandle)
    {queue : List RemoteHandle} (hb : Balanced s (hs ++ queue) transit) :
    Balanced (dropRemotes closes s hs) queue transit := by
  induction hs generalizing s with
  | nil => exact hb
  | cons h hs ih => exact ih hb.dropRemote

/-- `mark_sent` leaves the duplicates to their messages. -/
theorem Balanced.markSent (hb : Balanced s queue transit) :
    Balanced s (queue.map RemoteHandle.markSent) (transit + targetsOf queue) where
  source := by rw [handlesOf_markSent, hb.source]
  target := by
    rw [targetsOf_markSent, hb.target]
    abel
  sourceNodup := hb.sourceNodup
  targetNodup := hb.targetNodup
  valid := hb.valid

theorem Balanced.swap {queue' : List RemoteHandle} (hb : Balanced s (queue ++ queue') transit) :
    Balanced s (queue' ++ queue) transit where
  source := by rw [hb.source, handlesOf_append, handlesOf_append, add_comm (handlesOf queue)]
  target := by rw [hb.target, targetsOf_append, targetsOf_append, add_comm (targetsOf queue)]
  sourceNodup := hb.sourceNodup
  targetNodup := hb.targetNodup
  valid := hb.valid

theorem dropRemotes_eq (closes : HandleValue → Bool) (s : HandleLink α)
    (hs : List RemoteHandle) : ∃ source target unclosed,
      dropRemotes closes s hs = { s with source, target, unclosed } := by
  induction hs generalizing s with
  | nil => exact ⟨s.source, s.target, s.unclosed, rfl⟩
  | cons h hs ih =>
      obtain ⟨source, target, unclosed, heq⟩ := ih (dropRemote closes s h)
      refine ⟨source, target, unclosed, heq.trans ?_⟩
      unfold dropRemote
      cases h.targetHandle with
      | none => rfl
      | some v => dsimp only; split <;> rfl

/-! ## The stream -/

variable [Bincode (WireMessage α)]

/-- The messages on their way: `transit` are those that have been marked as
sent, of which `tail` has yet to be written, and `queued` those of which
nothing has been written. -/
structure Stream (s : HandleLink α) (transit queued : List (WireMessage α)) (tail : Bytes) :
    Prop where
  encodes : ∀ m ∈ transit ++ queued, Encodes m
  bytes : s.decoder.unread s.inbound ++ s.wire ++ tail = frames transit
  outbound : s.sending = true → s.outbound = tail ++ frames queued
  sent : ∃ lost, s.sent = s.received ++ transit ++ queued ++ lost ∧ (s.sending = true → lost = [])
  removed : s.sending = false → queued = []

/-- The panics of a sender. -/
def Local (panic : Option HandlePanic) : Prop :=
  ∀ p, panic = some p → p = .at .encodedLen ∨ p = .at .handleQueueFull

structure Inv (s : HandleLink α) (transit queued : List (WireMessage α)) (tail : Bytes) :
    Prop where
  balanced : Balanced s s.queue (valuesOf transit)
  duplicates : targetsOf s.queue = valuesOf queued
  stream : Stream s transit queued tail
  panics : Local s.panic

variable {transit queued : List (WireMessage α)} {tail : Bytes}

omit [Bincode (WireMessage α)] in
theorem valuesOf_append (ms ms' : List (WireMessage α)) :
    valuesOf (ms ++ ms') = valuesOf ms + valuesOf ms' := by
  simp [valuesOf]

omit [Bincode (WireMessage α)] in
theorem valuesOf_cons (m : WireMessage α) (ms : List (WireMessage α)) :
    valuesOf (m :: ms) = (m.value.toList : Multiset HandleValue) + valuesOf ms := by
  cases hv : m.value <;> simp [valuesOf, hv]

theorem inv_start (targetPid : UInt32) : (start α targetPid).Inv [] [] [] where
  balanced := ⟨rfl, rfl, Multiset.nodup_zero, Multiset.nodup_zero, by
    intro v hv; cases Multiset.notMem_zero v hv⟩
  duplicates := rfl
  stream := ⟨by simp, rfl, fun _ => rfl, ⟨[], rfl, fun _ => rfl⟩, fun _ => rfl⟩
  panics _ h := by cases h

/-- The connection of the sender goes, with all that it has not written.
`hs` is what the turn that fails has in its hands. -/
theorem removeSender_inv {closes : HandleValue → Bool} (hs : List RemoteHandle)
    (hb : Balanced s (hs ++ s.queue) (valuesOf transit)) (hstream : Stream s transit queued tail)
    (encoder : LengthDelimitedCodec) (outbound : Bytes) {panic : Option HandlePanic}
    (hpanic : Local panic) :
    ((dropRemotes closes { s with encoder, outbound, panic } hs).removeSender closes).Inv
      transit [] tail := by
  have hb₀ : Balanced { s with encoder, outbound, panic } (hs ++ s.queue) (valuesOf transit) :=
    ⟨hb.source, hb.target, hb.sourceNodup, hb.targetNodup, hb.valid⟩
  have hb₁ := hb₀.dropRemotes closes hs
  obtain ⟨source, target, unclosed, heq⟩ :=
    dropRemotes_eq closes { s with encoder, outbound, panic } hs
  rw [heq] at hb₁ ⊢
  have hb₂ : Balanced (dropRemotes closes
      { s with encoder, outbound, panic, source, target, unclosed } s.queue) []
        (valuesOf transit) :=
    Balanced.dropRemotes closes s.queue (by rwa [List.append_nil])
  obtain ⟨source', target', unclosed', heq'⟩ := dropRemotes_eq closes
    { s with encoder, outbound, panic, source, target, unclosed } s.queue
  rw [heq'] at hb₂
  unfold removeSender
  rw [heq']
  obtain ⟨lost, hsent, -⟩ := hstream.sent
  refine ⟨⟨hb₂.source, hb₂.target, hb₂.sourceNodup, hb₂.targetNodup, hb₂.valid⟩,
    rfl, ⟨?_, hstream.bytes, (fun h => by cases h), ⟨queued ++ lost, ?_, fun h => by cases h⟩,
      fun _ => rfl⟩, hpanic⟩
  · intro m hm
    rw [List.append_nil] at hm
    exact hstream.encodes m (List.mem_append_left _ hm)
  · simpa using hsent

/-- A message is encoded, or the connection goes with it. -/
theorem encodeItem_inv {closes : HandleValue → Bool} {m : HandleMessage α}
    (handle : Option RemoteHandle) (wire : WireMessage α)
    (hb : Balanced s (handle.toList ++ s.queue) (valuesOf transit))
    (hduplicates : targetsOf s.queue = valuesOf queued) (hstream : Stream s transit queued tail)
    (hpanic : Local s.panic) (hup : s.sending = true) (hwire : m.serialize = .ok wire)
    (hvalue : wire.value = handle.bind RemoteHandle.targetHandle) :
    ∃ queued', (s.encodeItem closes m handle).Inv transit queued' tail := by
  unfold encodeItem
  rw [hwire]
  dsimp only
  split
  · rename_i p hp
    refine ⟨[], removeSender_inv _ hb hstream s.encoder s.outbound fun p' hp' => ?_⟩
    cases hp'
    rw [LengthDelimitedCodec.encode_error hp]
    exact Or.inl rfl
  · exact ⟨[], removeSender_inv _ hb hstream _ _ hpanic⟩
  · rename_i encoder outbound hencode
    rcases LengthDelimitedCodec.encode_cases hencode with ⟨-, hencodes, -, hout⟩ | ⟨e, he, -⟩
    · split
      · have hb' := hb.swap
        obtain ⟨lost, hsent, hlost⟩ := hstream.sent
        obtain rfl := hlost hup
        refine ⟨queued ++ [wire],
          ⟨hb'.source, hb'.target, hb'.sourceNodup, hb'.targetNodup, hb'.valid⟩, ?_,
          ⟨?_, hstream.bytes, fun _ => ?_, ⟨[], ?_, fun _ => rfl⟩, fun h => ?_⟩, hpanic⟩
        · have hnew : targetsOf handle.toList = valuesOf [wire] := by
            rw [valuesOf_cons, hvalue]
            cases handle with
            | none => rfl
            | some h => exact targetsOf_cons h []
          rw [targetsOf_append, hduplicates, valuesOf_append, hnew]
        · intro m' hm'
          rw [← List.append_assoc] at hm'
          rcases List.mem_append.mp hm' with hold | hnew
          · exact hstream.encodes m' hold
          · rw [List.mem_singleton.mp hnew]
            exact hencodes
        · dsimp only
          rw [hout, hstream.outbound hup]
          simp
        · dsimp only
          rw [hsent]
          simp
        · exact absurd (hup.symm.trans h) Bool.noConfusion
      · refine ⟨[], removeSender_inv _ hb hstream _ _ fun p' hp' => ?_⟩
        cases hp'
        exact Or.inr rfl
    · cases he

theorem flushItem_inv {closes : HandleValue → Bool} {m : HandleMessage α}
    {duplicate : Option HandleValue} (h : s.Inv transit queued tail) (hup : s.sending = true)
    (hmade : s.made m = true) (hstep : s.flushItem closes m duplicate = some s') :
    ∃ queued', s'.Inv transit queued' tail := by
  unfold flushItem at hstep
  split at hstep
  · rename_i hassoc
    unfold made at hmade
    split at hstep
    · cases hstep
    · rename_i slot hslot
      rw [hslot] at hmade
      cases slot with
      | owned handle targetPid =>
          cases targetPid with
          | none => cases hmade
          | some targetPid =>
              simp only [Bool.and_eq_true, decide_eq_true_eq, beq_iff_eq] at hmade
              obtain ⟨hlocal, -⟩ := hmade
              -- the handle goes from the handler to the turn
              have htaken : Balanced { s with locals := s.locals.erase handle }
                  (⟨handle, targetPid, none⟩ :: s.queue) (valuesOf transit) := by
                refine ⟨?_, h.balanced.target, h.balanced.sourceNodup, h.balanced.targetNodup,
                  h.balanced.valid⟩
                rw [h.balanced.source, handlesOf_cons, Multiset.add_cons, ← Multiset.cons_add,
                  Multiset.cons_erase hlocal]
              have hstream :
                  Stream { s with locals := s.locals.erase handle } transit queued tail :=
                ⟨h.stream.encodes, h.stream.bytes, h.stream.outbound, h.stream.sent,
                  h.stream.removed⟩
              simp only [SerializableHandle.takeHandleForSend] at hstep
              split at hstep
              · cases hstep
                exact ⟨[], removeSender_inv [⟨handle, targetPid, none⟩] htaken hstream
                  _ _ h.panics⟩
              · rename_i v
                split at hstep <;> cases hstep
                rename_i hfresh
                simp only [fresh, Bool.and_eq_true, decide_eq_true_eq] at hfresh
                refine encodeItem_inv _ ⟨m.body, some v, by rw [hassoc]; rfl⟩ ?_
                  h.duplicates ?_ h.panics hup rfl rfl
                · exact Balanced.duplicate (h := ⟨handle, targetPid, none⟩) htaken hfresh.1 hfresh.2
                · exact ⟨h.stream.encodes, h.stream.bytes, h.stream.outbound, h.stream.sent,
                    h.stream.removed⟩
      | _ => cases hmade
  · rename_i hassoc
    cases hstep
    have hslot : m.slot = none := by
      have := m.attached
      rw [Bool.eq_false_iff.mpr hassoc] at this
      exact Option.not_isSome_iff_eq_none.mp (by simp [this])
    have hnone : hasAssociatedHandle m.body = false := Bool.eq_false_iff.mpr hassoc
    refine encodeItem_inv none ⟨m.body, none, by rw [hnone]; rfl⟩
      h.balanced h.duplicates h.stream h.panics hup ?_ rfl
    unfold HandleMessage.serialize
    split
    · rfl
    · rename_i slot hsome
      rw [hslot] at hsome
      cases hsome

/-- All that is queued is marked as sent with the first byte of it. -/
theorem sendMsg_inv {closes : HandleValue → Bool} {r : Except IoError Nat}
    (h : s.Inv transit queued tail) (hup : s.sending = true)
    (hstep : s.sendMsg closes r = some s') :
    ∃ transit' queued' tail', s'.Inv transit' queued' tail' := by
  cases r with
  | error e =>
      simp only [sendMsg] at hstep
      split at hstep <;> cases hstep
      · exact ⟨_, _, _, h⟩
      · exact ⟨_, _, _, removeSender_inv [] h.balanced h.stream _ _ h.panics⟩
  | ok n =>
      simp only [sendMsg] at hstep
      split at hstep
      · have hmarked := h.balanced.markSent
        rw [h.duplicates, ← valuesOf_append] at hmarked
        have hdrop : Balanced (dropRemotes closes s (s.queue.map RemoteHandle.markSent)) []
            (valuesOf (transit ++ queued)) :=
          Balanced.dropRemotes closes _ (by rwa [List.append_nil])
        obtain ⟨source, target, unclosed, heq⟩ :=
          dropRemotes_eq closes s (s.queue.map RemoteHandle.markSent)
        rw [heq] at hstep hdrop
        obtain ⟨lost, hsent, hlost⟩ := h.stream.sent
        have hinv : Inv { s with
            source, target, unclosed, outbound := s.outbound.drop n
            wire := s.wire ++ s.outbound.take n, queue := [] }
            (transit ++ queued) [] (s.outbound.drop n) := by
          refine ⟨⟨hdrop.source, hdrop.target, hdrop.sourceNodup, hdrop.targetNodup,
            hdrop.valid⟩, rfl, ⟨by simpa using h.stream.encodes, ?_, fun _ => by simp,
              ⟨lost, by simpa using hsent, hlost⟩, fun _ => rfl⟩, h.panics⟩
          have hbytes := h.stream.bytes
          have hout := h.stream.outbound hup
          dsimp only
          rw [List.append_assoc, List.append_assoc, List.take_append_drop, hout, frames_append,
            ← hbytes]
          simp
        split at hstep <;> cases hstep
        · exact ⟨_, _, _, removeSender_inv [] hinv.balanced hinv.stream _ _ hinv.panics⟩
        · exact ⟨_, _, _, hinv⟩
      · cases hstep

variable [LawfulBincode (WireMessage α)]

/-- The receiver takes the first message in transit, with its handle. -/
theorem processItem_inv (h : s.Inv transit queued tail) :
    ∃ transit', s.processItem.Inv transit' queued tail := by
  have hbytes := h.stream.bytes
  rw [List.append_assoc] at hbytes
  unfold processItem
  cases transit with
  | nil =>
      have hnil : s.decoder.unread s.inbound = [] := (List.append_eq_nil_iff.mp hbytes).1
      obtain ⟨-, -, hdec⟩ := s.decoder.decode_nil (α := WireMessage α) hnil
      rw [hdec]
      exact ⟨[], h⟩
  | cons m rest =>
      have hm : Encodes m := h.stream.encodes m (by simp)
      rw [frames_cons] at hbytes
      rcases s.decoder.decode_frame hm hbytes with
        ⟨-, decoder, inbound, hdec, htail, -⟩ | ⟨-, decoder, inbound, hdec, hsame⟩
      · rw [hdec]
        have hstream : ∀ owned, Stream { s with
            decoder, inbound, received := s.received ++ [m], owned } rest queued tail := by
          intro owned
          obtain ⟨lost, hsent, hlost⟩ := h.stream.sent
          refine ⟨fun m' hm' => h.stream.encodes m' (List.mem_cons_of_mem _ hm'), ?_,
            h.stream.outbound, ⟨lost, by simpa using hsent, hlost⟩, h.stream.removed⟩
          dsimp only
          rw [List.append_assoc]
          exact htail
        have htarget := h.balanced.target
        rw [valuesOf_cons] at htarget
        simp only [WireMessage.deserialize, Option.map_map]
        cases hvalue : m.value with
        | none =>
            rw [hvalue] at htarget
            exact ⟨rest, ⟨h.balanced.source, by simpa using htarget, h.balanced.sourceNodup,
              h.balanced.targetNodup, h.balanced.valid⟩, h.duplicates, hstream _, h.panics⟩
        | some v =>
            rw [hvalue] at htarget
            have hvalid : validHandle v = true := h.balanced.valid v (by rw [htarget]; simp)
            simp only [Option.map_some, Function.comp_apply, SerializableHandle.makeOwned,
              SerializableHandle.newOwned, hvalid, if_true, SerializableHandle.takeHandle]
            refine ⟨rest, ⟨h.balanced.source, ?_, h.balanced.sourceNodup, h.balanced.targetNodup,
              h.balanced.valid⟩, h.duplicates, hstream _, h.panics⟩
            dsimp only
            rw [htarget, ← Multiset.singleton_add]
            simp only [Option.toList_some, Multiset.coe_singleton]
            abel
      · rw [hdec]
        refine ⟨m :: rest, ⟨h.balanced.source, h.balanced.target, h.balanced.sourceNodup,
          h.balanced.targetNodup, h.balanced.valid⟩, h.duplicates, ⟨h.stream.encodes, ?_,
            h.stream.outbound, h.stream.sent, h.stream.removed⟩, h.panics⟩
        dsimp only
        rw [hsame]
        exact h.stream.bytes

omit [LawfulBincode (WireMessage α)] in
theorem Inv.tables {locals source owned others target : Multiset HandleValue}
    (h : s.Inv transit queued tail)
    (hb : Balanced { s with locals, source, owned, others, target } s.queue (valuesOf transit)) :
    Inv { s with locals, source, owned, others, target } transit queued tail :=
  ⟨hb, h.duplicates, ⟨h.stream.encodes, h.stream.bytes, h.stream.outbound, h.stream.sent,
    h.stream.removed⟩, h.panics⟩

theorem step_inv {a : HandleAction α} (h : s.Inv transit queued tail)
    (hstep : s.step a = some s') : ∃ transit' queued' tail', s'.Inv transit' queued' tail' := by
  cases a with
  | flushItem m duplicate closes =>
      simp only [step] at hstep
      split at hstep
      · rename_i hmay
        obtain ⟨hup, hmade⟩ := Bool.and_eq_true_iff.mp hmay
        obtain ⟨queued', h'⟩ := flushItem_inv h hup hmade hstep
        exact ⟨_, _, _, h'⟩
      · cases hstep
  | sendMsg r closes =>
      simp only [step] at hstep
      split at hstep
      · rename_i hmay
        exact sendMsg_inv h (Bool.and_eq_true_iff.mp hmay).1 hstep
      · cases hstep
  | removeSender closes =>
      simp only [step] at hstep
      split at hstep <;> cases hstep
      exact ⟨_, _, _, removeSender_inv [] h.balanced h.stream _ _ h.panics⟩
  | recvMsg n =>
      simp only [step] at hstep
      split at hstep <;> cases hstep
      refine ⟨transit, queued, tail, ⟨h.balanced.source, h.balanced.target,
        h.balanced.sourceNodup, h.balanced.targetNodup, h.balanced.valid⟩, h.duplicates,
        ⟨h.stream.encodes, ?_, h.stream.outbound, h.stream.sent, h.stream.removed⟩, h.panics⟩
      have hbytes := h.stream.bytes
      simp only [LengthDelimitedCodec.unread, List.append_assoc] at hbytes ⊢
      rw [← List.append_assoc (s.wire.take n), List.take_append_drop, hbytes]
  | processItem =>
      simp only [step] at hstep
      split at hstep <;> cases hstep
      obtain ⟨transit', h'⟩ := processItem_inv h
      exact ⟨_, _, _, h'⟩
  | removeReceiver =>
      simp only [step] at hstep
      split at hstep <;> cases hstep
      exact ⟨transit, queued, tail, ⟨h.balanced.source, h.balanced.target,
        h.balanced.sourceNodup, h.balanced.targetNodup, h.balanced.valid⟩, h.duplicates,
        ⟨h.stream.encodes, h.stream.bytes, h.stream.outbound, h.stream.sent, h.stream.removed⟩,
        h.panics⟩
  | release v =>
      simp only [step] at hstep
      split at hstep <;> cases hstep
      rename_i hv
      refine ⟨_, _, _, h.tables ⟨h.balanced.source, ?_, h.balanced.sourceNodup,
        h.balanced.targetNodup.erase v, fun w hw =>
          h.balanced.valid w (Multiset.mem_of_mem_erase hw)⟩⟩
      obtain ⟨owned, howned⟩ := Multiset.exists_cons_of_mem hv
      dsimp only
      rw [h.balanced.target, howned, Multiset.erase_cons_head, Multiset.add_cons,
        Multiset.cons_add, Multiset.erase_cons_head]
  | openLocal v =>
      simp only [step] at hstep
      split at hstep <;> cases hstep
      rename_i hfresh
      simp only [fresh, Bool.and_eq_true, decide_eq_true_eq] at hfresh
      refine ⟨_, _, _, h.tables ⟨?_, h.balanced.target,
        Multiset.nodup_cons.mpr ⟨hfresh.2, h.balanced.sourceNodup⟩, h.balanced.targetNodup,
        h.balanced.valid⟩⟩
      dsimp only
      rw [h.balanced.source, Multiset.cons_add]
  | closeLocal v =>
      simp only [step] at hstep
      split at hstep <;> cases hstep
      rename_i hv
      refine ⟨_, _, _, h.tables ⟨?_, h.balanced.target, h.balanced.sourceNodup.erase v,
        h.balanced.targetNodup, h.balanced.valid⟩⟩
      obtain ⟨locals, hlocals⟩ := Multiset.exists_cons_of_mem hv
      dsimp only
      rw [h.balanced.source, hlocals, Multiset.erase_cons_head, Multiset.cons_add,
        Multiset.erase_cons_head]
  | openOther v =>
      simp only [step] at hstep
      split at hstep <;> cases hstep
      rename_i hfresh
      simp only [fresh, Bool.and_eq_true, decide_eq_true_eq] at hfresh
      refine ⟨_, _, _, h.tables ⟨h.balanced.source, ?_, h.balanced.sourceNodup,
        Multiset.nodup_cons.mpr ⟨hfresh.2, h.balanced.targetNodup⟩, fun w hw => ?_⟩⟩
      · dsimp only
        rw [h.balanced.target]
        simp only [Multiset.cons_add]
      · rcases Multiset.mem_cons.mp hw with rfl | hold
        · exact hfresh.1
        · exact h.balanced.valid w hold
  | closeOther v =>
      simp only [step] at hstep
      split at hstep <;> cases hstep
      rename_i hv
      refine ⟨_, _, _, h.tables ⟨h.balanced.source, ?_, h.balanced.sourceNodup,
        h.balanced.targetNodup.erase v, fun w hw =>
          h.balanced.valid w (Multiset.mem_of_mem_erase hw)⟩⟩
      obtain ⟨others, hothers⟩ := Multiset.exists_cons_of_mem hv
      dsimp only
      rw [h.balanced.target, hothers, Multiset.erase_cons_head]
      simp only [Multiset.cons_add, Multiset.erase_cons_head]

/-- In every state each handle that is open in the target process has one
owner. A duplicate is its sender's until the first byte of what is queued
is written, then that of nobody while its message is on its way, and then
its receiver's. So is each handle open in the sending process. The receiver
never panics. -/
theorem remote_handles (targetPid : UInt32) {as : List (HandleAction α)} {s : HandleLink α}
    (hrun : Lts.runs step (start α targetPid) as = some s) :
    ∃ (transit queued : List (WireMessage α)) (tail : Bytes),
      (s.target = s.others + valuesOf queued + valuesOf transit + s.owned + s.unclosed ∧
        s.target.Nodup ∧ targetsOf s.queue = valuesOf queued) ∧
      (s.source = s.locals + handlesOf s.queue ∧ s.source.Nodup) ∧
      s.decoder.unread s.inbound ++ s.wire ++ tail = frames transit ∧
      (if s.sending then s.outbound = tail ++ frames queued else queued = []) ∧
      s.received ++ transit ++ queued <+: s.sent ∧ Local s.panic := by
  have hinv : ∃ transit queued tail, s.Inv transit queued tail :=
    Lts.runs_invariant (I := fun s : HandleLink α => ∃ transit queued tail,
      s.Inv transit queued tail) (fun _ _ _ ⟨_, _, _, h⟩ hstep => step_inv h hstep)
      ⟨[], [], [], inv_start targetPid⟩ hrun
  obtain ⟨transit, queued, tail, h⟩ := hinv
  obtain ⟨lost, hsent, -⟩ := h.stream.sent
  refine ⟨transit, queued, tail, ⟨?_, h.balanced.targetNodup, h.duplicates⟩,
    ⟨h.balanced.source, h.balanced.sourceNodup⟩, h.stream.bytes, ?_, ⟨lost, hsent.symm⟩, h.panics⟩
  · rw [← h.duplicates]
    exact h.balanced.target
  · split
    · exact h.stream.outbound ‹_›
    · exact h.stream.removed (Bool.eq_false_iff.mpr ‹_›)

end HandleLink

open LittleEndian in
/-- A tag, and the value of the handle as an `i64`. -/
instance : Bincode (WireMessage Bool) where
  serializeInto m :=
    match m.value with
    | none => ([0], .ok ())
    | some v => (1 :: leBytes 8 v.toUInt64.toNat, .ok ())
  deserialize
    | [] => .error (.other "unexpected end of file")
    | tag :: bytes =>
        if tag = 0 then .ok ⟨false, none, rfl⟩
        else .ok ⟨true, some (UInt64.ofNat (ofLeBytes bytes)).toInt64, rfl⟩

instance : LawfulBincode (WireMessage Bool) where
  deserialize_serializeInto := by
    rintro ⟨body, value, attached⟩ p h
    cases value with
    | none =>
        obtain rfl : false = body := attached
        cases h
        rfl
    | some v =>
        obtain rfl : true = body := attached
        cases h
        have hv := LittleEndian.ofLeBytes_leBytes (k := 8) (n := v.toUInt64.toNat)
          v.toUInt64.toNat_lt
        simp [Bincode.deserialize, hv]

namespace HandleLink

/-- A connection that ends in the middle of a message leaves the duplicate
to nobody. -/
theorem remote_handles_run : ∃ (s : HandleLink Bool) (transit : List (WireMessage Bool)),
    s.sending = false ∧ s.receiving = false ∧ s.source = 0 ∧ s.target = {9} ∧
      s.others = 0 ∧ s.owned = 0 ∧ s.unclosed = 0 ∧ valuesOf transit = {9} := by
  let message : HandleMessage Bool := ⟨true, some (.owned 5 (some 1)), rfl⟩
  let script : List (HandleAction Bool) :=
    [.openLocal 5, .flushItem message (some 9) fun _ => true, .sendMsg (.ok 3) fun _ => true,
     .recvMsg 3, .processItem, .removeSender fun _ => true, .processItem, .removeReceiver]
  have hscript : (Lts.runs step (start Bool 1) script).map (fun s =>
      ([s.source, s.target, s.others, s.owned, s.unclosed], s.sending, s.receiving, s.queue)) =
      some ([0, {9}, 0, 0, 0], false, false, []) := by
    decide +kernel
  obtain ⟨s, hs, heq⟩ := Option.map_eq_some_iff.mp hscript
  simp only [Prod.mk.injEq, List.cons.injEq] at heq
  obtain ⟨⟨hsource, htarget, hothers, howned, hunclosed, -⟩, hsending, hreceiving, hqueue⟩ := heq
  obtain ⟨transit, queued, tail, ⟨haccounts, -, hduplicates⟩, -⟩ := remote_handles 1 hs
  refine ⟨s, transit, hsending, hreceiving, hsource, htarget, hothers, howned, hunclosed, ?_⟩
  rw [hqueue] at hduplicates
  rw [htarget, ← hduplicates, hothers, howned, hunclosed] at haccounts
  simpa [targetsOf] using haccounts.symm

end HandleLink

end Audioipc

import Audioipc.Basic
import Audioipc.LittleEndian

/-!
# The length-delimited codec

`codec.rs`: a message is serialised with bincode under a 1 MiB limit and
prefixed with a magic number and its length. The decoder is a two-state
machine that consumes the header as soon as it has arrived and remembers
the length until the payload is there.

bincode is not part of the repository: a message type comes with a
`Bincode` instance, and `LawfulBincode` is the one thing the crate relies
on, that reading back exactly the bytes that were written gives the value.

The bottom of the file characterises one `decode` call against the stream
that is still unread. `unread` is the buffer with the header that the state
machine has already consumed put back in front, so that it is always a
suffix of the byte stream that was sent, whatever state the machine is in.
-/

namespace Audioipc

open LittleEndian

/-- `bincode::ErrorKind`, as far as the codec inspects it. -/
inductive BincodeError where
  | io (e : IoError)
  | other (msg : String)
deriving Repr, DecidableEq

/-- The `map_err` of `decode_data` and the error branch of `encode`. -/
def BincodeError.toIo : BincodeError → IoError
  | .io e => e
  | .other msg => .other msg

/-- bincode with `DefaultOptions` and the 1 MiB limit, at one message type.
`serializeInto` also says what it wrote before it failed. -/
class Bincode (α : Type) where
  serializeInto : α → Bytes × Except BincodeError Unit
  deserialize : Bytes → Except BincodeError α

/-- What the crate relies on: the bytes of a successful `serialize_into`
deserialise to the value they were made from. -/
class LawfulBincode (α : Type) [Bincode α] : Prop where
  deserialize_serializeInto : ∀ {a : α} {p : Bytes},
    Bincode.serializeInto a = (p, .ok ()) → Bincode.deserialize p = .ok a

/-- `codec.rs`'s `State`. -/
inductive CodecState where
  | length
  | data (n : UInt32)
deriving Repr, DecidableEq

def MAX_MESSAGE_LEN : Nat := 1024 * 1024

def MAGIC : Nat := 0xa4d1019cc9101d4a

/-- `size_of::<u32>() + size_of::<u64>()` -/
def HEADER_LEN : Nat := 4 + 8

structure LengthDelimitedCodec where
  state : CodecState
  encodeBuf : Bytes
deriving Repr, DecidableEq

def LengthDelimitedCodec.default : LengthDelimitedCodec := ⟨.length, []⟩

/-! ## Decoding -/

/-- Lengths are encoded as little endian u32. -/
def decodeLength (buf : Bytes) : Exec (Option UInt32 × Bytes) :=
  if buf.length < HEADER_LEN then
    return (none, buf)
  else if ofLeBytes (buf.take 8) ≠ MAGIC then
    throw .magic
  else
    return (some (.ofNat (ofLeBytes ((buf.drop 8).take 4))), buf.drop HEADER_LEN)

def decodeData (α : Type) [Bincode α] (buf : Bytes) (n : Nat) :
    Except IoError (Option α) × Bytes :=
  if buf.length < n then
    (.ok none, buf)
  else
    match Bincode.deserialize (α := α) (buf.take n) with
    | .error e => (.error e.toIo, buf)
    | .ok msg => (.ok (some msg), buf.drop n)

namespace LengthDelimitedCodec

/-- The second half of `decode`, entered with the length known. -/
def decodePayload (α : Type) [Bincode α] (c : LengthDelimitedCodec) (buf : Bytes)
    (n : Nat) : Except IoError (Option α) × LengthDelimitedCodec × Bytes :=
  match decodeData α buf n with
  | (.ok (some data), buf) => (.ok (some data), { c with state := .length }, buf)
  | (r, buf) => (r, c, buf)

def decode (α : Type) [Bincode α] (c : LengthDelimitedCodec) (buf : Bytes) :
    Exec (Except IoError (Option α) × LengthDelimitedCodec × Bytes) :=
  match c.state with
  | .length =>
      match decodeLength buf with
      | .error p => throw p
      | .ok (none, buf) => return (.ok none, c, buf)
      | .ok (some n, buf) =>
          if n.toNat ≤ MAX_MESSAGE_LEN then
            return decodePayload α { c with state := .data n } buf n.toNat
          else
            throw .messageLen
  | .data n => return decodePayload α c buf n.toNat

/-- `encode`. The buffer grows only after bincode has succeeded. -/
def encode {α : Type} [Bincode α] (c : LengthDelimitedCodec) (item : α) (buf : Bytes) :
    Exec (Except IoError Unit × LengthDelimitedCodec × Bytes) :=
  match Bincode.serializeInto item with
  | (written, .error e) => return (.error e.toIo, { c with encodeBuf := written }, buf)
  | (written, .ok ()) =>
      if written.length ≤ MAX_MESSAGE_LEN then
        return (.ok (), { c with encodeBuf := written },
          buf ++ leBytes 8 MAGIC ++ leBytes 4 written.length ++ written)
      else
        throw .encodedLen

end LengthDelimitedCodec

/-! ## Frames -/

/-- The header `encode` puts in front of a payload of `n` bytes. -/
def frameHeader (n : Nat) : Bytes := leBytes 8 MAGIC ++ leBytes 4 n

def frame (payload : Bytes) : Bytes := frameHeader payload.length ++ payload

@[simp] theorem length_frameHeader (n : Nat) : (frameHeader n).length = HEADER_LEN := by
  simp [frameHeader, HEADER_LEN]

@[simp] theorem length_frame (p : Bytes) : (frame p).length = HEADER_LEN + p.length := by
  simp [frame]

/-- The bytes `serialize_into` writes for a message. -/
def payload {α : Type} [Bincode α] (a : α) : Bytes := (Bincode.serializeInto a).1

/-- The message is within the codec limit: bincode accepts it and its
encoding has at most `MAX_MESSAGE_LEN` bytes. -/
def Encodes {α : Type} [Bincode α] (a : α) : Prop :=
  (Bincode.serializeInto a).2 = .ok () ∧ (payload a).length ≤ MAX_MESSAGE_LEN

/-- The byte stream of a list of messages. -/
def frames {α : Type} [Bincode α] (ms : List α) : Bytes :=
  (ms.map fun m => frame (payload m)).flatten

section Frames

variable {α : Type} [Bincode α]

@[simp] theorem frames_nil : frames ([] : List α) = [] := rfl

@[simp] theorem frames_cons (m : α) (ms : List α) :
    frames (m :: ms) = frame (payload m) ++ frames ms := rfl

@[simp] theorem frames_append (ms ms' : List α) :
    frames (ms ++ ms') = frames ms ++ frames ms' := by
  simp [frames]

theorem Encodes.deserialize [LawfulBincode α] {a : α} (h : Encodes a) :
    Bincode.deserialize (payload a) = .ok a :=
  LawfulBincode.deserialize_serializeInto (Prod.ext rfl h.1)

/-- A successful `encode` appends the message's frame and nothing else; an
`encode` that returns `Err` leaves the buffer as it was. -/
theorem LengthDelimitedCodec.encode_cases {c : LengthDelimitedCodec} {item : α}
    {buf : Bytes} {r : Except IoError Unit} {c' : LengthDelimitedCodec} {buf' : Bytes}
    (h : c.encode item buf = .ok (r, c', buf')) :
    (r = .ok () ∧ Encodes item ∧ c' = { c with encodeBuf := payload item } ∧
      buf' = buf ++ frame (payload item)) ∨
    (∃ e, r = .error e ∧ buf' = buf ∧ c'.state = c.state) := by
  unfold encode at h
  split at h
  · cases h
    exact Or.inr ⟨_, rfl, rfl, rfl⟩
  · rename_i written heq
    have hp : payload item = written := congrArg Prod.fst heq
    split at h
    · rename_i hlen
      cases h
      refine Or.inl ⟨rfl, ⟨congrArg Prod.snd heq, hp ▸ hlen⟩, by rw [hp], ?_⟩
      simp [frame, frameHeader, hp]
    · cases h

theorem LengthDelimitedCodec.encode_error {c : LengthDelimitedCodec} {item : α} {buf : Bytes}
    {p : Panic} (h : c.encode item buf = .error p) : p = .encodedLen := by
  unfold encode at h
  split at h
  · cases h
  · split at h <;> cases h
    rfl

theorem LengthDelimitedCodec.encode_of_encodes {c : LengthDelimitedCodec} {item : α}
    (h : Encodes item) (buf : Bytes) :
    c.encode item buf =
      .ok (.ok (), { c with encodeBuf := payload item }, buf ++ frame (payload item)) := by
  have heq : Bincode.serializeInto item = (payload item, .ok ()) := Prod.ext rfl h.1
  unfold encode
  simp only [heq, if_pos h.2]
  simp [frame, frameHeader, pure, Except.pure]

end Frames

/-! ## One `decode` call against the unread stream -/

/-- The header bytes the state machine has consumed for the frame it is in. -/
def CodecState.consumed : CodecState → Bytes
  | .length => []
  | .data n => frameHeader n.toNat

/-- The bytes received and not yet part of a decoded message. -/
def LengthDelimitedCodec.unread (c : LengthDelimitedCodec) (buf : Bytes) : Bytes :=
  c.state.consumed ++ buf

theorem Encodes.length_lt {α : Type} [Bincode α] {a : α} (h : Encodes a) :
    (payload a).length < 2 ^ 32 :=
  Nat.lt_of_le_of_lt h.2 (by decide)

theorem frameHeader_inj {n m : Nat} (hn : n < 2 ^ 32) (hm : m < 2 ^ 32)
    (h : frameHeader n = frameHeader m) : n = m := by
  have h4 : leBytes 4 n = leBytes 4 m := List.append_cancel_left h
  rw [← ofLeBytes_leBytes (k := 4) hn, h4, ofLeBytes_leBytes (k := 4) hm]

theorem decodeLength_header {n : Nat} (hn : n < 2 ^ 32) (rest : Bytes) :
    decodeLength (frameHeader n ++ rest) = .ok (some (.ofNat n), rest) := by
  have hlen : ¬ (frameHeader n ++ rest).length < HEADER_LEN := by simp
  have hmagic : (frameHeader n ++ rest).take 8 = leBytes 8 MAGIC := by
    simp [frameHeader]
  have hn' : ((frameHeader n ++ rest).drop 8).take 4 = leBytes 4 n := by
    simp [frameHeader]
  have hrest : (frameHeader n ++ rest).drop HEADER_LEN = rest := by
    rw [← length_frameHeader n, List.drop_left]
  have hm : ofLeBytes (leBytes 8 MAGIC) = MAGIC := ofLeBytes_leBytes (by decide)
  unfold decodeLength
  simp only [if_neg hlen, hmagic, hn', hrest, ofLeBytes_leBytes (k := 4) hn, hm,
    ne_eq, not_true_eq_false, if_false]
  rfl

section Decode

variable {α : Type} [Bincode α] [LawfulBincode α]

/-- With the header consumed, `decode` yields the message exactly when its
whole payload has arrived. -/
theorem LengthDelimitedCodec.decodePayload_spec {c : LengthDelimitedCodec} {m : α}
    (hm : Encodes m) (hc : c.state = .data (.ofNat (payload m).length))
    {buf future tail : Bytes} (h : buf ++ future = payload m ++ tail) :
    ((frame (payload m)).length ≤ (c.unread buf).length ∧
      ∃ c' buf', decodePayload α c buf (payload m).length = (.ok (some m), c', buf') ∧
        c'.unread buf' ++ future = tail ∧ c'.state = .length) ∨
    ((c.unread buf).length < (frame (payload m)).length ∧
      ∃ c' buf', decodePayload α c buf (payload m).length = (.ok none, c', buf') ∧
        c'.unread buf' = c.unread buf) := by
  have hlen : (c.unread buf).length = HEADER_LEN + buf.length := by
    simp [unread, hc, CodecState.consumed]
  rcases Nat.lt_or_ge buf.length (payload m).length with hlt | hge
  · refine Or.inr ⟨by rw [hlen, length_frame]; omega, c, buf, ?_, rfl⟩
    simp [decodePayload, decodeData, hlt]
  · have htake : buf.take (payload m).length = payload m := by
      have := congrArg (List.take (payload m).length) h
      rwa [List.take_append_of_le_length hge, List.take_left] at this
    have hdrop : buf.drop (payload m).length ++ future = tail := by
      have := congrArg (List.drop (payload m).length) h
      rwa [List.drop_append_of_le_length hge, List.drop_left] at this
    refine Or.inl ⟨by rw [hlen, length_frame]; omega,
      { c with state := .length }, buf.drop (payload m).length, ?_, hdrop, rfl⟩
    simp [decodePayload, decodeData, Nat.not_lt.mpr hge, htake, hm.deserialize]

/-- One `decode` call on a stream whose next frame is that of `m`: it yields
`m` and leaves the rest of the stream exactly when the whole frame has
arrived, and otherwise it leaves the unread stream as it was. It never
returns `Err` and neither assertion fires. -/
theorem LengthDelimitedCodec.decode_frame (c : LengthDelimitedCodec) {m : α}
    (hm : Encodes m) {buf future tail : Bytes}
    (h : c.unread buf ++ future = frame (payload m) ++ tail) :
    ((frame (payload m)).length ≤ (c.unread buf).length ∧
      ∃ c' buf', c.decode α buf = .ok (.ok (some m), c', buf') ∧
        c'.unread buf' ++ future = tail ∧ c'.state = .length) ∨
    ((c.unread buf).length < (frame (payload m)).length ∧
      ∃ c' buf', c.decode α buf = .ok (.ok none, c', buf') ∧
        c'.unread buf' = c.unread buf) := by
  have hofNat : (UInt32.ofNat (payload m).length).toNat = (payload m).length :=
    UInt32.toNat_ofNat_of_lt' hm.length_lt
  unfold decode
  cases hs : c.state with
  | data n =>
      -- the consumed header can only be the one of `m`'s frame
      have hsplit : frameHeader n.toNat ++ (buf ++ future) =
          frameHeader (payload m).length ++ (payload m ++ tail) := by
        simpa [unread, hs, CodecState.consumed, frame] using h
      obtain ⟨hhdr, hrest⟩ := List.append_inj hsplit (by simp)
      have hn : n.toNat = (payload m).length :=
        frameHeader_inj n.toNat_lt hm.length_lt hhdr
      have hc : c.state = .data (.ofNat (payload m).length) := by
        rw [hs, ← hn, UInt32.ofNat_toNat]
      simp only [hn, pure, Except.pure, Except.ok.injEq]
      exact decodePayload_spec hm hc hrest
  | length =>
      have hbuf : buf ++ future = frame (payload m) ++ tail := by
        simpa [unread, hs, CodecState.consumed] using h
      rcases Nat.lt_or_ge buf.length HEADER_LEN with hlt | hge
      · refine Or.inr ⟨?_, c, buf, ?_, rfl⟩
        · simp [unread, hs, CodecState.consumed]; omega
        · simp [decodeLength, hlt, pure, Except.pure]
      · -- the header is complete: `decode` consumes it and goes on with the payload
        have hhdr : buf.take HEADER_LEN = frameHeader (payload m).length := by
          have := congrArg (List.take HEADER_LEN) hbuf
          rw [List.take_append_of_le_length hge] at this
          rw [this, frame, List.append_assoc, ← length_frameHeader (payload m).length,
            List.take_left]
        obtain ⟨rest, rfl⟩ : ∃ rest, buf = frameHeader (payload m).length ++ rest :=
          ⟨buf.drop HEADER_LEN, by rw [← hhdr, List.take_append_drop]⟩
        have hrest : rest ++ future = payload m ++ tail := by
          simpa [frame] using hbuf
        rw [decodeLength_header hm.length_lt]
        simp only [hofNat, if_pos hm.2, pure, Except.pure, Except.ok.injEq]
        have key := decodePayload_spec (c := { c with state := .data (.ofNat (payload m).length) })
          hm rfl hrest
        simpa [unread, CodecState.consumed, hs, hofNat] using key

end Decode

/-- At the end of the stream `decode` returns `None` and keeps its state. -/
theorem LengthDelimitedCodec.decode_nil {α : Type} [Bincode α] (c : LengthDelimitedCodec)
    {buf : Bytes} (h : c.unread buf = []) : c.state = .length ∧ buf = [] ∧
      c.decode α buf = .ok (.ok none, c, buf) := by
  cases hs : c.state with
  | data n =>
      have := congrArg List.length h
      simp [unread, hs, CodecState.consumed, HEADER_LEN] at this
  | length =>
      obtain rfl : buf = [] := by simpa [unread, hs, CodecState.consumed] using h
      exact ⟨rfl, rfl, by simp [decode, hs, decodeLength, HEADER_LEN, pure, Except.pure]⟩

/-! ## What one `decode` call can do -/

section Inversion

variable {α : Type} [Bincode α]

theorem decodeLength_some {buf rest : Bytes} {n : UInt32}
    (h : decodeLength buf = .ok (some n, rest)) :
    HEADER_LEN ≤ buf.length ∧ rest = buf.drop HEADER_LEN := by
  unfold decodeLength at h
  split at h
  · cases h
  · rename_i hlen
    split at h <;> cases h
    exact ⟨Nat.not_lt.mp hlen, rfl⟩

theorem LengthDelimitedCodec.decodePayload_some {c c' : LengthDelimitedCodec}
    {buf buf' : Bytes} {n : Nat} {m : α}
    (h : decodePayload α c buf n = (.ok (some m), c', buf')) :
    n ≤ buf.length ∧ c' = { c with state := .length } ∧ buf' = buf.drop n := by
  unfold decodePayload decodeData at h
  rcases Nat.lt_or_ge buf.length n with hlt | hge
  · simp [hlt] at h
  · rw [if_neg (Nat.not_lt.mpr hge)] at h
    cases hd : Bincode.deserialize (α := α) (buf.take n) with
    | error e => simp [hd] at h
    | ok msg =>
        simp only [hd, Prod.mk.injEq] at h
        exact ⟨hge, h.2.1.symm, h.2.2.symm⟩

/-- Every message `decode` yields uses up at least a header of the unread
stream. -/
theorem LengthDelimitedCodec.decode_some_lt {c c' : LengthDelimitedCodec}
    {buf buf' : Bytes} {m : α}
    (h : c.decode α buf = .ok (.ok (some m), c', buf')) :
    (c'.unread buf').length < (c.unread buf).length := by
  unfold decode at h
  split at h
  case h_1 hs =>
    split at h
    · cases h
    · cases h
    · rename_i n rest heq
      obtain ⟨hlen, rfl⟩ := decodeLength_some heq
      split at h
      · obtain ⟨-, rfl, rfl⟩ := decodePayload_some (Except.ok.inj h)
        simp only [unread, hs, CodecState.consumed, List.nil_append, List.length_drop]
        unfold HEADER_LEN at *
        omega
      · cases h
  case h_2 n hs =>
    obtain ⟨-, rfl, rfl⟩ := decodePayload_some (Except.ok.inj h)
    simp only [unread, hs, CodecState.consumed, List.nil_append, List.length_append,
      length_frameHeader, List.length_drop, HEADER_LEN]
    omega

end Inversion

end Audioipc

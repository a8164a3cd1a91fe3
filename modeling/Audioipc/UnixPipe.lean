import Audioipc.Sys

/-!
# The Unix pipe

`sys/unix/mod.rs` and `sys/unix/cmsg.rs`: a Unix stream socket with one
scratch buffer `cmsg` for control data, used by sends and receives alike.

Of the kernel we assume what `unix(7)` documents. A send that reports an
error has transferred nothing. A send that takes bytes transfers the
descriptors of every `SCM_RIGHTS` header in the control buffer, and they
are delivered with the receive that takes the first of these bytes. One
receive never crosses two such control messages, and it writes a single
header, cut to the room there is.

`send_msg` returns from its error branch without clearing `cmsg`. The pipe
is therefore a lawful one (`unixPipe_lawful`) only from a state in which the
buffer is `Clean`, and only for sends that, when they fail and will be
retried, had no handles queued (`SendKeepsClean`).
-/

namespace Audioipc

/-! ## The control buffer -/

/-- `CMSG_LEN`: a control message header has 16 bytes on 64-bit Linux. -/
def cmsgLen (len : Nat) : Nat := 16 + len

/-- `CMSG_SPACE`: the data is padded to a multiple of 8. -/
def cmsgSpace (len : Nat) : Nat := 16 + (len + 7) / 8 * 8

/-- The header and its data lie within the space that `advance_mut` skips. -/
theorem cmsgLen_le_cmsgSpace (len : Nat) : cmsgLen len ≤ cmsgSpace len := by
  unfold cmsgLen cmsgSpace
  omega

/-- The `BytesMut` of control data. What it holds is always a sequence of
complete `SCM_RIGHTS` headers, each with its descriptors. -/
structure ControlBuffer where
  capacity : Nat
  headers : List (List Handle)
deriving Repr, DecidableEq

namespace ControlBuffer

/-- `cmsg::space(size_of::<i32>() * HANDLE_QUEUE_LIMIT)`, as `Pipe::new` has it. -/
def new : ControlBuffer := ⟨cmsgSpace (4 * HANDLE_QUEUE_LIMIT), []⟩

def len (b : ControlBuffer) : Nat := (b.headers.map fun hs => cmsgSpace (4 * hs.length)).sum

/-- `chunk_mut` reserves 64 more bytes when the buffer is full, and a `Vec`
at least doubles when it grows. -/
def chunkMut (b : ControlBuffer) : ControlBuffer :=
  if b.len = b.capacity then { b with capacity := max (2 * b.capacity) (b.len + 64) } else b

/-- The bytes between the length and the capacity. -/
def spare (b : ControlBuffer) : Nat := b.capacity - b.len

def clear (b : ControlBuffer) : ControlBuffer := { b with headers := [] }

/-- `encode_handles`. `BytesMut::remaining_mut` counts what could still be
allocated, so the assertion on it always holds; what limits the copy is the
chunk that `chunk_mut` returns. -/
def encodeHandles (b : ControlBuffer) (handles : List Handle) : Exec ControlBuffer :=
  if HANDLE_QUEUE_LIMIT < handles.length then
    throw .tooManyHandles
  else if b.chunkMut.spare < cmsgSpace (4 * handles.length) then
    throw .cmsgOverrun
  else
    return { b.chunkMut with headers := b.headers ++ [handles] }

/-- `decode_handles`. Only the first header of the buffer is looked at. -/
def decodeHandles (b : ControlBuffer) : Exec (List Handle) :=
  match b.headers with
  | [] => return []
  | hs :: _ => if HANDLE_QUEUE_LIMIT < hs.length then throw .tooManyDescriptors else return hs

/-- What the kernel writes into the chunk for the descriptors `fds`, as many
of them as there is room for. -/
def recvControl (b : ControlBuffer) (fds : List Handle) : ControlBuffer :=
  let delivered := fds.take ((b.chunkMut.spare - cmsgLen 0) / 4)
  if delivered.isEmpty then b.chunkMut
  else { b.chunkMut with headers := b.headers ++ [delivered] }

/-- Empty, and with the capacity it was made with. -/
def Clean (b : ControlBuffer) : Prop := b = new

theorem clean_chunkMut {b : ControlBuffer} (h : b.Clean) : b.chunkMut = new := by
  rw [h]; rfl

theorem spare_new : new.spare = 80 := rfl

/-- In a clean buffer there is room for as many handles as a queue holds. -/
theorem encodeHandles_clean {b : ControlBuffer} (h : b.Clean) {handles : List Handle}
    (hle : handles.length ≤ HANDLE_QUEUE_LIMIT) :
    b.encodeHandles handles = .ok { new with headers := [handles] } := by
  have hspace : ¬ spare new < cmsgSpace (4 * handles.length) := by
    rw [spare_new]
    unfold cmsgSpace HANDLE_QUEUE_LIMIT at *
    omega
  unfold encodeHandles
  rw [if_neg (Nat.not_lt.mpr hle), clean_chunkMut h, if_neg hspace, h]
  rfl

/-- From a clean buffer a receive delivers exactly the descriptors that came. -/
theorem decodeHandles_recvControl {b : ControlBuffer} (h : b.Clean) {fds : List Handle}
    (hle : fds.length ≤ HANDLE_QUEUE_LIMIT) :
    (b.recvControl fds).decodeHandles = .ok fds ∧ (b.recvControl fds).clear = new := by
  have htake : fds.take ((spare new - cmsgLen 0) / 4) = fds :=
    List.take_of_length_le (by rw [spare_new]; unfold cmsgLen HANDLE_QUEUE_LIMIT at *; omega)
  unfold recvControl
  rw [clean_chunkMut h, htake, h]
  cases fds with
  | nil => exact ⟨rfl, rfl⟩
  | cons f fds =>
      refine ⟨?_, rfl⟩
      simp only [List.isEmpty_cons, Bool.false_eq_true, if_false, decodeHandles, new,
        List.nil_append, if_neg (Nat.not_lt.mpr hle)]
      rfl

end ControlBuffer

/-! ## `send_msg` and `recv_msg` -/

/-- The control messages of a stretch of the stream. -/
def ctls (w : List Tok) : List (List Handle) :=
  w.filterMap fun
    | .byte _ => none
    | .ctl hs => some hs

/-- `handles[i] = h.handle` for every queued handle, in an array of
`HANDLE_QUEUE_LIMIT` entries, and then `encode_handles`. -/
def encodeQueued (cmsg : ControlBuffer) (handles : List Handle) : Exec ControlBuffer :=
  if handles.isEmpty then
    return cmsg
  else if HANDLE_QUEUE_LIMIT < handles.length then
    throw .handleArrayIndex
  else
    cmsg.encodeHandles handles

/-- `Pipe::send_msg`. The socket itself is the stream of tokens, so the
state of the pipe is the control buffer. -/
def Pipe.sendMsg (cmsg : ControlBuffer) (buf : ConnectionBuffer) (r : Except IoError Nat) :
    Option (Exec (Except IoError Nat × ControlBuffer × ConnectionBuffer × List Tok)) :=
  if buf.buf.isEmpty then
    some (throw .sendEmpty)
  else
    match encodeQueued cmsg buf.handles with
    | .error p => some (throw p)
    | .ok cmsg =>
        match r with
        | .ok n =>
            if n ≤ buf.buf.length then
              let toks := if n = 0 then [] else segment cmsg.headers.flatten (buf.buf.take n)
              some (return (.ok n, cmsg.clear, buf.sent n, toks))
            else none
        -- `cmsg` keeps what was just encoded
        | .error e => some (return (.error e, cmsg, buf, []))

/-- `Pipe::recv_msg`. -/
def Pipe.recvMsg (cmsg : ControlBuffer) (buf : ConnectionBuffer) (r : Except IoError Nat)
    (w : List Tok) :
    Option (Exec (Except IoError Nat × ControlBuffer × ConnectionBuffer × List Tok)) :=
  match r with
  | .error e => some (return (.error e, cmsg.chunkMut, buf, w))
  | .ok n =>
      let frag := (splitBytes n w).1
      if n ≤ (bytesOf w).length ∧ (ctls frag).length ≤ 1 then
        let cmsg := cmsg.recvControl (fdsOf frag)
        match cmsg.decodeHandles with
        | .error p => some (throw p)
        | .ok handles =>
            match ConnectionBuffer.pushHandles
                { buf with buf := buf.buf ++ bytesOf frag } handles with
            | .error p => some (throw p)
            | .ok buf' => some (return (.ok n, cmsg.clear, buf', (splitBytes n w).2))
      else none

def unixPipe : PipeOps ControlBuffer := ⟨Pipe.sendMsg, Pipe.recvMsg⟩

/-- A send that fails and will be retried had no handles queued. -/
def SendKeepsClean (b : ConnectionBuffer) (r : Except IoError Nat) : Prop :=
  ∀ e, r = .error e → e.transient = true → b.handles = []

instance (b : ConnectionBuffer) : (r : Except IoError Nat) → Decidable (SendKeepsClean b r)
  | .ok _ => .isTrue nofun
  | .error e => decidable_of_iff (e.transient = true → b.handles = [])
      ⟨fun h _ he => by cases he; exact h, fun h => h e rfl⟩

theorem fdsOf_eq_ctls (w : List Tok) : fdsOf w = (ctls w).flatten := by
  induction w with
  | nil => rfl
  | cons t w ih =>
      cases t with
      | byte b => simpa [fdsOf, ctls, Tok.fds] using ih
      | ctl hs =>
          have : fdsOf (.ctl hs :: w) = hs ++ fdsOf w := by simp [fdsOf, Tok.fds]
          rw [this, ih]
          simp [ctls]

/-- A receive takes at most one control message, hence at most a queue of
descriptors. -/
theorem length_fdsOf_le {w : List Tok} (w' : List Tok) (hshort : ShortCtl (w ++ w'))
    (hone : (ctls w).length ≤ 1) : (fdsOf w).length ≤ HANDLE_QUEUE_LIMIT := by
  rw [fdsOf_eq_ctls]
  match hctls : ctls w with
  | [] => simp [HANDLE_QUEUE_LIMIT]
  | [hs] =>
      have hmem : hs ∈ ctls w := by simp [hctls]
      obtain ⟨t, ht, heq⟩ := List.mem_filterMap.mp hmem
      cases t with
      | byte b => cases heq
      | ctl hs' =>
          obtain rfl := Option.some.inj heq
          simpa using hshort hs' (List.mem_append_left _ ht)
  | _ :: _ :: _ => rw [hctls] at hone; simp at hone

theorem encodeQueued_clean {cmsg : ControlBuffer} (h : cmsg.Clean) (b : ConnectionBuffer) :
    encodeQueued cmsg b.handles = .ok { ControlBuffer.new with
      headers := if b.handles.isEmpty then [] else [b.handles] } := by
  unfold encodeQueued
  split
  · rw [h]; rfl
  · rw [if_neg (Nat.not_lt.mpr b.handles_le),
      ControlBuffer.encodeHandles_clean h b.handles_le]

theorem sendMsg_lawful {cmsg cmsg' : ControlBuffer} {b b' : ConnectionBuffer}
    {r res : Except IoError Nat} {toks : List Tok} (hclean : cmsg.Clean)
    (hok : SendKeepsClean b r)
    (h : Pipe.sendMsg cmsg b r = some (.ok (res, cmsg', b', toks))) :
    SendsInOrder b res b' toks ∧ (Fatal res ∨ cmsg'.Clean) := by
  unfold Pipe.sendMsg at h
  split at h
  · cases h
  · rw [encodeQueued_clean hclean] at h
    cases r with
    | ok n =>
        dsimp only at h
        split at h
        · rename_i hn
          cases h
          have hflat : (if b.handles.isEmpty then ([] : List (List Handle))
              else [b.handles]).flatten = b.handles := by
            cases b.handles <;> simp
          refine ⟨?_, Or.inr rfl⟩
          cases n with
          | zero => rfl
          | succ n => exact ⟨hn, by rw [if_neg (by omega), hflat], rfl⟩
        · cases h
    | error e =>
        cases h
        refine ⟨⟨rfl, rfl⟩, ?_⟩
        cases htr : e.transient with
        | false => exact Or.inl ⟨e, rfl, htr⟩
        | true =>
            have : b.handles = [] := hok e rfl htr
            exact Or.inr (by simp [this, ControlBuffer.Clean, ControlBuffer.new])

theorem sendMsg_safe {cmsg : ControlBuffer} {b : ConnectionBuffer} {r : Except IoError Nat}
    {p : Panic} (hclean : cmsg.Clean) (hb : b.buf ≠ []) :
    Pipe.sendMsg cmsg b r ≠ some (.error p) := by
  intro h
  unfold Pipe.sendMsg at h
  rw [if_neg (by simpa using hb), encodeQueued_clean hclean] at h
  cases r with
  | ok n => dsimp only at h; split at h <;> cases h
  | error e => cases h

theorem recvControl_clean {cmsg : ControlBuffer} (hclean : cmsg.Clean) {n : Nat}
    {w : List Tok} (hshort : ShortCtl w) (hone : (ctls (splitBytes n w).1).length ≤ 1) :
    (cmsg.recvControl (fdsOf (splitBytes n w).1)).decodeHandles
        = .ok (fdsOf (splitBytes n w).1) ∧
      (cmsg.recvControl (fdsOf (splitBytes n w).1)).clear = ControlBuffer.new :=
  ControlBuffer.decodeHandles_recvControl hclean
    (length_fdsOf_le (splitBytes n w).2 (by rwa [splitBytes_append]) hone)

theorem recvMsg_lawful {cmsg cmsg' : ControlBuffer} {b b' : ConnectionBuffer}
    {r res : Except IoError Nat} {w w' : List Tok} (hclean : cmsg.Clean) (hshort : ShortCtl w)
    (h : Pipe.recvMsg cmsg b r w = some (.ok (res, cmsg', b', w'))) :
    ReceivesInOrder b w res b' w' ∧ cmsg'.Clean := by
  cases r with
  | error e =>
      cases h
      exact ⟨⟨rfl, rfl⟩, ControlBuffer.clean_chunkMut hclean⟩
  | ok n =>
      unfold Pipe.recvMsg at h
      dsimp only at h
      split at h
      · rename_i hcond
        obtain ⟨hdec, hclear⟩ := recvControl_clean hclean hshort hcond.2
        rw [hdec] at h
        dsimp only at h
        split at h
        · cases h
        · rename_i buf' hpush
          cases h
          obtain ⟨hbuf, hhandles⟩ := ConnectionBuffer.pushHandles_ok hpush
          exact ⟨⟨_, (splitBytes_append n w).symm, hbuf, hhandles⟩, hclear⟩
      · cases h

theorem recvMsg_safe {cmsg : ControlBuffer} {b : ConnectionBuffer} {r : Except IoError Nat}
    {w : List Tok} {p : Panic} (hclean : cmsg.Clean) (hshort : ShortCtl w)
    (h : Pipe.recvMsg cmsg b r w = some (.error p)) :
    p = .handleQueueFull ∧
      ∃ frag, frag <+: w ∧ HANDLE_QUEUE_LIMIT < b.handles.length + (fdsOf frag).length := by
  cases r with
  | error e => cases h
  | ok n =>
      unfold Pipe.recvMsg at h
      dsimp only at h
      split at h
      · rename_i hcond
        rw [(recvControl_clean hclean hshort hcond.2).1] at h
        dsimp only at h
        split at h
        · rename_i hpush
          cases h
          obtain ⟨rfl, hlt⟩ := ConnectionBuffer.pushHandles_error hpush
          exact ⟨rfl, _, ⟨_, splitBytes_append n w⟩, hlt⟩
        · cases h
      · cases h

theorem unixPipe_lawful : LawfulPipe unixPipe ControlBuffer.Clean SendKeepsClean :=
  ⟨sendMsg_lawful, sendMsg_safe, recvMsg_lawful, recvMsg_safe⟩

end Audioipc

import Audioipc.Codec

/-!
# Connection buffers and what pipes do with them

`sys/mod.rs`: the `ConnectionBuffer` that a connection fills or empties, and
the two traits `SendMsg` and `RecvMsg` that move its contents to and from
the peer.

What travels is a stream of tokens: bytes, and the control messages that
ride on them. The control message of a send precedes its first byte, so a
receive that takes the byte takes the descriptors in front of it as well
(`splitBytes`).

`PipeOps` is the interface of the two traits; the outcome of the system
call is an argument. `bytePipe` is the contract stated in the traits'
comments, a reliable stream with nothing in between. `LawfulPipe` says when
a pipe keeps to that contract; the Unix pipe does so only from a clean
state (`Audioipc.UnixPipe`).
-/

namespace Audioipc

def HANDLE_QUEUE_LIMIT : Nat := 16

/-- Bytes and the handles that go with them. The handle queue is created
with capacity `HANDLE_QUEUE_LIMIT` and `push_handle` never lets it grow. -/
structure ConnectionBuffer where
  buf : Bytes
  handles : List Handle
  handles_le : handles.length ≤ HANDLE_QUEUE_LIMIT
deriving DecidableEq

namespace ConnectionBuffer

@[ext] theorem ext {b b' : ConnectionBuffer} (hbuf : b.buf = b'.buf)
    (hhandles : b.handles = b'.handles) : b = b' := by
  cases b; cases b'; cases hbuf; cases hhandles; rfl

def empty : ConnectionBuffer := ⟨[], [], Nat.zero_le _⟩

def pushHandle (b : ConnectionBuffer) (h : Handle) : Exec ConnectionBuffer :=
  if hlt : b.handles.length < HANDLE_QUEUE_LIMIT then
    return ⟨b.buf, b.handles ++ [h], by rw [List.length_append]; exact hlt⟩
  else
    throw .handleQueueFull

def popHandle (b : ConnectionBuffer) : Option Handle × ConnectionBuffer :=
  (b.handles.head?, ⟨b.buf, b.handles.tail, by
    rw [List.length_tail]; exact Nat.le_trans (Nat.sub_le ..) b.handles_le⟩)

/-- `for h in handles { buf.push_handle(h) }` -/
def pushHandles (b : ConnectionBuffer) : List Handle → Exec ConnectionBuffer
  | [] => return b
  | h :: hs =>
      match b.pushHandle h with
      | .error p => throw p
      | .ok b' => pushHandles b' hs

/-- What is left after the first `n` bytes were sent, and with them every
queued handle. -/
def sent (b : ConnectionBuffer) (n : Nat) : ConnectionBuffer :=
  ⟨b.buf.drop n, [], Nat.zero_le _⟩

theorem pushHandle_ok {b b' : ConnectionBuffer} {h : Handle}
    (hp : b.pushHandle h = .ok b') :
    b'.buf = b.buf ∧ b'.handles = b.handles ++ [h] := by
  unfold pushHandle at hp
  split at hp <;> cases hp
  exact ⟨rfl, rfl⟩

theorem pushHandle_error {b : ConnectionBuffer} {h : Handle} {p : Panic}
    (hp : b.pushHandle h = .error p) :
    p = .handleQueueFull ∧ HANDLE_QUEUE_LIMIT ≤ b.handles.length := by
  unfold pushHandle at hp
  split at hp
  · cases hp
  · cases hp
    exact ⟨rfl, Nat.not_lt.mp ‹_›⟩

theorem pushHandles_error {b : ConnectionBuffer} {hs : List Handle} {p : Panic}
    (hp : b.pushHandles hs = .error p) :
    p = .handleQueueFull ∧ HANDLE_QUEUE_LIMIT < b.handles.length + hs.length := by
  induction hs generalizing b with
  | nil => cases hp
  | cons h hs ih =>
      unfold pushHandles at hp
      split at hp
      · rename_i heq
        cases hp
        obtain ⟨rfl, hle⟩ := pushHandle_error heq
        exact ⟨rfl, by rw [List.length_cons]; omega⟩
      · rename_i b₁ heq
        obtain ⟨rfl, hlt⟩ := ih hp
        refine ⟨rfl, ?_⟩
        rw [(pushHandle_ok heq).2] at hlt
        simp only [List.length_append, List.length_cons, List.length_nil] at hlt ⊢
        omega

theorem pushHandles_ok {b b' : ConnectionBuffer} {hs : List Handle}
    (hp : b.pushHandles hs = .ok b') :
    b'.buf = b.buf ∧ b'.handles = b.handles ++ hs := by
  induction hs generalizing b with
  | nil => cases hp; simp
  | cons h hs ih =>
      unfold pushHandles at hp
      split at hp
      · cases hp
      · rename_i b₁ heq
        obtain ⟨hbuf, hhandles⟩ := pushHandle_ok heq
        obtain ⟨hbuf', hhandles'⟩ := ih hp
        exact ⟨hbuf'.trans hbuf, by rw [hhandles', hhandles]; simp⟩

end ConnectionBuffer

/-! ## The stream between two pipes -/

/-- A byte, or the control message with the descriptors of one send. -/
inductive Tok where
  | byte (b : UInt8)
  | ctl (hs : List Handle)
deriving Repr, DecidableEq

def Tok.bytes : Tok → Bytes
  | .byte b => [b]
  | .ctl _ => []

def Tok.fds : Tok → List Handle
  | .byte _ => []
  | .ctl hs => hs

def bytesOf (w : List Tok) : Bytes := (w.map Tok.bytes).flatten

def fdsOf (w : List Tok) : List Handle := (w.map Tok.fds).flatten

@[simp] theorem bytesOf_nil : bytesOf [] = [] := rfl

@[simp] theorem fdsOf_nil : fdsOf [] = [] := rfl

@[simp] theorem bytesOf_append (w w' : List Tok) :
    bytesOf (w ++ w') = bytesOf w ++ bytesOf w' := by
  simp [bytesOf]

@[simp] theorem fdsOf_append (w w' : List Tok) :
    fdsOf (w ++ w') = fdsOf w ++ fdsOf w' := by
  simp [fdsOf]

/-- What a send of `bs` with the descriptors `hs` puts on the stream. -/
def segment (hs : List Handle) (bs : Bytes) : List Tok :=
  (if hs.isEmpty then [] else [.ctl hs]) ++ bs.map .byte

@[simp] theorem bytesOf_map_byte (bs : Bytes) : bytesOf (bs.map .byte) = bs := by
  induction bs with
  | nil => rfl
  | cons b bs ih => simpa [bytesOf, Tok.bytes] using ih

@[simp] theorem fdsOf_map_byte (bs : Bytes) : fdsOf (bs.map .byte) = [] := by
  simp [fdsOf, Tok.fds]

@[simp] theorem bytesOf_segment (hs : List Handle) (bs : Bytes) :
    bytesOf (segment hs bs) = bs := by
  have := bytesOf_map_byte bs
  cases hs <;> simp_all [segment, bytesOf, Tok.bytes]

@[simp] theorem fdsOf_segment (hs : List Handle) (bs : Bytes) :
    fdsOf (segment hs bs) = hs := by
  have := fdsOf_map_byte bs
  cases hs <;> simp_all [segment, fdsOf, Tok.fds]

/-- The control message of a send comes before everything else of it. -/
theorem fdsOf_of_segment_eq {hs : List Handle} {bs : Bytes} {w w' : List Tok}
    (h : segment hs bs = w ++ w') : w = [] ∨ fdsOf w = hs := by
  cases w with
  | nil => exact Or.inl rfl
  | cons t w =>
      have hfds := congrArg fdsOf h
      rw [fdsOf_segment, fdsOf_append] at hfds
      have hw' : fdsOf w' = [] := by
        have hsuffix : w' <:+ bs.map Tok.byte := by
          cases hs with
          | nil => exact ⟨t :: w, by simpa [segment] using h.symm⟩
          | cons f fs =>
              have htail : bs.map Tok.byte = w ++ w' := by
                simpa [segment] using (List.cons_eq_cons.mp h).2
              exact ⟨w, htail.symm⟩
        obtain ⟨v, hv⟩ := hsuffix
        have hnil := fdsOf_map_byte bs
        rw [← hv, fdsOf_append] at hnil
        exact (List.append_eq_nil_iff.mp hnil).2
      exact Or.inr (by rw [hfds, hw', List.append_nil])

/-- The shortest prefix of the stream with `n` bytes, and the rest. -/
def splitBytes : Nat → List Tok → List Tok × List Tok
  | 0, w => ([], w)
  | _ + 1, [] => ([], [])
  | n + 1, .ctl hs :: w => ((.ctl hs :: (splitBytes (n + 1) w).1), (splitBytes (n + 1) w).2)
  | n + 1, .byte b :: w => ((.byte b :: (splitBytes n w).1), (splitBytes n w).2)

theorem splitBytes_append (n : Nat) (w : List Tok) :
    (splitBytes n w).1 ++ (splitBytes n w).2 = w := by
  fun_induction splitBytes n w with
  | case1 | case2 => rfl
  | case3 n h w ih => rw [List.cons_append, ih]
  | case4 n b w ih => rw [List.cons_append, ih]

/-- No control message carries more descriptors than a handle queue holds. -/
def ShortCtl (w : List Tok) : Prop := ∀ hs, Tok.ctl hs ∈ w → hs.length ≤ HANDLE_QUEUE_LIMIT

theorem ShortCtl.append {w w' : List Tok} (h : ShortCtl w) (h' : ShortCtl w') :
    ShortCtl (w ++ w') := fun hs hmem =>
  (List.mem_append.mp hmem).elim (h hs) (h' hs)

theorem ShortCtl.of_append_right {w w' : List Tok} (h : ShortCtl (w ++ w')) : ShortCtl w' :=
  fun hs hmem => h hs (List.mem_append_right _ hmem)

theorem shortCtl_segment {hs : List Handle} (h : hs.length ≤ HANDLE_QUEUE_LIMIT) (bs : Bytes) :
    ShortCtl (segment hs bs) := by
  intro hs' hmem
  unfold segment at hmem
  split at hmem <;> simp_all

/-! ## The `SendMsg` and `RecvMsg` traits -/

/-- `SendMsg` and `RecvMsg` for pipes with private state `P`. The argument
of type `Except IoError Nat` is the outcome of the system call, with the
number of bytes it moved; `none` means the call cannot have that outcome in
this state. `sendMsg` also returns the tokens it put on the stream to the
peer, `recvMsg` takes the stream from the peer and returns the rest of it. -/
structure PipeOps (P : Type) where
  sendMsg : P → ConnectionBuffer → Except IoError Nat →
    Option (Exec (Except IoError Nat × P × ConnectionBuffer × List Tok))
  recvMsg : P → ConnectionBuffer → Except IoError Nat → List Tok →
    Option (Exec (Except IoError Nat × P × ConnectionBuffer × List Tok))

/-- What `SendMsg` promises: a successful send takes bytes off the front of
the buffer and hands every queued handle over with the first of them, a
failed one leaves the buffer alone. -/
def SendsInOrder (b : ConnectionBuffer) (r : Except IoError Nat) (b' : ConnectionBuffer)
    (toks : List Tok) : Prop :=
  match r with
  | .ok 0 => toks = []
  | .ok (n + 1) =>
      n < b.buf.length ∧ toks = segment b.handles (b.buf.take (n + 1)) ∧ b' = b.sent (n + 1)
  | .error _ => toks = [] ∧ b' = b

/-- What `RecvMsg` promises: a successful receive moves the next bytes of
the stream into the buffer, and queues the handles that come with them. -/
def ReceivesInOrder (b : ConnectionBuffer) (w : List Tok) (r : Except IoError Nat)
    (b' : ConnectionBuffer) (w' : List Tok) : Prop :=
  match r with
  | .ok _ => ∃ frag, w = frag ++ w' ∧
      b'.buf = b.buf ++ bytesOf frag ∧ b'.handles = b.handles ++ fdsOf frag
  | .error _ => w' = w ∧ b' = b

/-- The result of a system call that makes `recv_inbound` or `send_outbound`
give the connection up. -/
def Fatal (r : Except IoError Nat) : Prop := ∃ e, r = .error e ∧ e.transient = false

/-- From states that satisfy `Clean`, sends that satisfy `OkSend` and all
receives keep the contract and leave the pipe clean, and the only panic is
that of a receive whose handles do not fit the queue. -/
structure LawfulPipe {P : Type} (ops : PipeOps P) (Clean : P → Prop)
    (OkSend : ConnectionBuffer → Except IoError Nat → Prop) : Prop where
  send : ∀ {p b r res p' b' toks}, Clean p → OkSend b r →
    ops.sendMsg p b r = some (.ok (res, p', b', toks)) →
    SendsInOrder b res b' toks ∧ (Fatal res ∨ Clean p')
  send_safe : ∀ {p b r e}, Clean p → b.buf ≠ [] → ops.sendMsg p b r ≠ some (.error e)
  recv : ∀ {p b r w res p' b' w'}, Clean p → ShortCtl w →
    ops.recvMsg p b r w = some (.ok (res, p', b', w')) →
    ReceivesInOrder b w res b' w' ∧ Clean p'
  recv_safe : ∀ {p b r w e}, Clean p → ShortCtl w → ops.recvMsg p b r w = some (.error e) →
    e = .handleQueueFull ∧
      ∃ frag, frag <+: w ∧ HANDLE_QUEUE_LIMIT < b.handles.length + (fdsOf frag).length

/-- The pipe that is nothing but the contract: a reliable FIFO stream. -/
def bytePipe : PipeOps Unit where
  sendMsg _ b r :=
    match r with
    | .error e => some (.ok (.error e, (), b, []))
    | .ok n =>
        if n ≤ b.buf.length then
          some (.ok (.ok n, (), b.sent n,
            if n = 0 then [] else segment b.handles (b.buf.take n)))
        else none
  recvMsg _ b r w :=
    match r with
    | .error e => some (.ok (.error e, (), b, w))
    | .ok n =>
        if n ≤ (bytesOf w).length then
          match ConnectionBuffer.pushHandles
              { b with buf := b.buf ++ bytesOf (splitBytes n w).1 }
              (fdsOf (splitBytes n w).1) with
          | .error p => some (.error p)
          | .ok b' => some (.ok (.ok n, (), b', (splitBytes n w).2))
        else none

theorem bytePipe_lawful : LawfulPipe bytePipe (fun _ => True) (fun _ _ => True) where
  send := by
    intro p b r res p' b' toks _ _ h
    simp only [bytePipe] at h
    split at h
    · cases h
      exact ⟨⟨rfl, rfl⟩, Or.inr trivial⟩
    · rename_i n
      split at h <;> cases h
      rename_i hn
      refine ⟨?_, Or.inr trivial⟩
      cases n with
      | zero => rfl
      | succ n => exact ⟨hn, rfl, rfl⟩
  send_safe := by
    intro p b r e _ _ h
    simp only [bytePipe] at h
    split at h
    · cases h
    · split at h <;> cases h
  recv := by
    intro p b r w res p' b' w' _ _ h
    simp only [bytePipe] at h
    split at h
    · cases h
      exact ⟨⟨rfl, rfl⟩, trivial⟩
    · rename_i n
      split at h
      · split at h <;> cases h
        rename_i hpush
        obtain ⟨hbuf, hhandles⟩ := ConnectionBuffer.pushHandles_ok hpush
        exact ⟨⟨_, (splitBytes_append n w).symm, hbuf, hhandles⟩, trivial⟩
      · cases h
  recv_safe := by
    intro p b r w e _ _ h
    simp only [bytePipe] at h
    split at h
    · cases h
    · rename_i n
      split at h
      · split at h <;> cases h
        rename_i hpush
        obtain ⟨rfl, hlt⟩ := ConnectionBuffer.pushHandles_error hpush
        exact ⟨rfl, _, ⟨_, splitBytes_append n w⟩, hlt⟩
      · cases h

end Audioipc

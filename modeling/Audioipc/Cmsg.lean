import Audioipc.Link
import Audioipc.LittleEndian
import Audioipc.Simulation
import Audioipc.UnixPipe

/-!
# Control data as bytes

`sys/unix/cmsg.rs` on the bytes that the kernel reads and writes: a
`cmsghdr`, the descriptors as native integers, and padding. `UnixPipe` has
these as a list of headers. `Rep` relates the bytes to the headers that they
spell, and `encode_handles`, `decode_handles` and what the kernel does agree
with the operations there, also in the states that a failed send leaves
behind (`unixCmsgPipe_refines`, `unixPipe_refines`). So the runs of two
connections over the bytes are those over the headers, with the same messages,
handles and panics (`cmsg_link_refines`); that the slice of `decode_handles`
is out of range is not among these.

The numbers that a process has for its descriptors are those of its
`FdTable`. In a step over the bytes every descriptor that is sent or received
has one.
-/

namespace Audioipc

open LittleEndian

/-! ## `cmsghdr` and the descriptors -/

def SOL_SOCKET : Nat := 1

def SCM_RIGHTS : Nat := 1

/-- The most descriptors that Linux transfers in one message. -/
def SCM_MAX_FD : Nat := 253

def cmsghdr (len level type : Nat) : Bytes := leBytes 8 len ++ leBytes 4 level ++ leBytes 4 type

@[simp] theorem length_cmsghdr (len level type : Nat) : (cmsghdr len level type).length = 16 := by
  simp [cmsghdr]

/-- `cmsg_len` of the header in front of `bytes`. -/
def cmsgLenOf (bytes : Bytes) : Nat := ofLeBytes (bytes.take 8)

def cmsgLevelOf (bytes : Bytes) : Nat := ofLeBytes ((bytes.drop 8).take 4)

def cmsgTypeOf (bytes : Bytes) : Nat := ofLeBytes ((bytes.drop 12).take 4)

theorem cmsgLenOf_cmsghdr {len : Nat} (h : len < 256 ^ 8) (level type : Nat) (rest : Bytes) :
    cmsgLenOf (cmsghdr len level type ++ rest) = len := by
  have htake : (cmsghdr len level type ++ rest).take 8 = leBytes 8 len := by
    simp only [cmsghdr, List.append_assoc]
    exact List.take_left' (length_leBytes ..)
  rw [cmsgLenOf, htake, ofLeBytes_leBytes h]

theorem cmsgLevelOf_cmsghdr (len : Nat) {level : Nat} (h : level < 256 ^ 4) (type : Nat)
    (rest : Bytes) : cmsgLevelOf (cmsghdr len level type ++ rest) = level := by
  have hdrop : (cmsghdr len level type ++ rest).drop 8 =
      leBytes 4 level ++ (leBytes 4 type ++ rest) := by
    simp only [cmsghdr, List.append_assoc]
    exact List.drop_left' (length_leBytes ..)
  rw [cmsgLevelOf, hdrop, List.take_left' (length_leBytes ..), ofLeBytes_leBytes h]

theorem cmsgTypeOf_cmsghdr (len level : Nat) {type : Nat} (h : type < 256 ^ 4) (rest : Bytes) :
    cmsgTypeOf (cmsghdr len level type ++ rest) = type := by
  have hdrop : (cmsghdr len level type ++ rest).drop 12 = leBytes 4 type ++ rest := by
    simp only [cmsghdr, List.append_assoc]
    rw [← List.append_assoc]
    exact List.drop_left' (by simp)
  rw [cmsgTypeOf, hdrop, List.take_left' (length_leBytes ..), ofLeBytes_leBytes h]

def asBytes (fds : List Int32) : Bytes := (fds.map fun fd => leBytes 4 fd.toUInt32.toNat).flatten

/-- `slice::from_raw_parts` of as many descriptors as the bytes have room for. -/
def fdsOfBytes : Bytes → List Int32
  | a :: b :: c :: d :: rest =>
      (UInt32.ofNat (ofLeBytes [a, b, c, d])).toInt32 :: fdsOfBytes rest
  | _ => []

theorem length_asBytes (fds : List Int32) : (asBytes fds).length = 4 * fds.length := by
  induction fds with
  | nil => rfl
  | cons fd fds ih =>
      simp only [asBytes, List.map_cons, List.flatten_cons, List.length_append, length_leBytes,
        List.length_cons] at ih ⊢
      omega

theorem fdsOfBytes_asBytes (fds : List Int32) : fdsOfBytes (asBytes fds) = fds := by
  induction fds with
  | nil => rfl
  | cons fd fds ih =>
      have hle := ofLeBytes_leBytes (k := 4) (n := fd.toUInt32.toNat) fd.toUInt32.toNat_lt
      have hcons : asBytes (fd :: fds) = leBytes 4 fd.toUInt32.toNat ++ asBytes fds := rfl
      rw [hcons]
      simp only [leBytes, List.cons_append, List.nil_append, fdsOfBytes] at hle ⊢
      rw [hle, ih]
      simp

/-! ## What the code and the kernel do with the bytes -/

def decodeHandles (buf : Bytes) : Exec (List Int32) :=
  if buf.length < cmsgLen 0 then
    return []
  else if cmsgLevelOf buf = SOL_SOCKET ∧ cmsgTypeOf buf = SCM_RIGHTS then
    if cmsgLen 0 ≤ cmsgLenOf buf ∧ cmsgLenOf buf ≤ buf.length then
      let fds := fdsOfBytes ((buf.take (cmsgLenOf buf)).drop (cmsgLen 0))
      if HANDLE_QUEUE_LIMIT < fds.length then throw .tooManyDescriptors else return fds
    else throw .cmsgSlice
  else return []

/-- The kernel goes through the headers of a control buffer that is sent. -/
def scmRights : Nat → Bytes → List (List Int32)
  | 0, _ => []
  | fuel + 1, buf =>
      if cmsgLen 0 ≤ buf.length ∧ cmsgLen 0 ≤ cmsgLenOf buf ∧ cmsgLenOf buf ≤ buf.length then
        fdsOfBytes ((buf.take (cmsgLenOf buf)).drop (cmsgLen 0)) ::
          scmRights fuel (buf.drop ((cmsgLenOf buf + 7) / 8 * 8))
      else []

/-- The numbers of a process for what its descriptors refer to. -/
structure FdTable where
  number : Handle → Int32
  handle : Int32 → Handle

def FdTable.has (t : FdTable) (h : Handle) : Bool := t.handle (t.number h) == h

/-- The scratch buffer of a `Pipe`, in a process with the descriptors
`table`. `memory` is what was in its allocation before. -/
structure CmsgBuffer where
  table : FdTable
  memory : Nat → UInt8
  capacity : Nat
  bytes : Bytes

namespace CmsgBuffer

def new (table : FdTable) (memory : Nat → UInt8) : CmsgBuffer :=
  ⟨table, memory, cmsgSpace (4 * HANDLE_QUEUE_LIMIT), []⟩

def chunkMut (c : CmsgBuffer) : CmsgBuffer :=
  if c.bytes.length = c.capacity then
    { c with capacity := max (2 * c.capacity) (c.bytes.length + 64) }
  else c

def spare (c : CmsgBuffer) : Nat := c.capacity - c.bytes.length

def clear (c : CmsgBuffer) : CmsgBuffer := { c with bytes := [] }

def write (c : CmsgBuffer) (fds : List Int32) (space : Nat) : CmsgBuffer :=
  let written := c.bytes ++ cmsghdr (cmsgLen (4 * fds.length)) SOL_SOCKET SCM_RIGHTS ++ asBytes fds
  let padding := (List.range (space - cmsgLen (4 * fds.length))).map fun i =>
    c.memory (written.length + i)
  { c with bytes := written ++ padding }

/-- `encode_handles`. -/
def encodeHandles (c : CmsgBuffer) (fds : List Int32) : Exec CmsgBuffer :=
  if HANDLE_QUEUE_LIMIT < fds.length then
    throw .tooManyHandles
  else if c.chunkMut.spare < cmsgSpace (4 * fds.length) then
    throw .cmsgOverrun
  else
    return c.chunkMut.write fds (cmsgSpace (4 * fds.length))

/-- The kernel writes a header with as many of the descriptors as fit into
the chunk, and says how much of the chunk it has used. -/
def recvControl (c : CmsgBuffer) (fds : List Int32) : CmsgBuffer :=
  let delivered := fds.take ((c.chunkMut.spare - cmsgLen 0) / 4)
  if delivered.isEmpty then c.chunkMut
  else c.chunkMut.write delivered (min (cmsgSpace (4 * delivered.length)) c.chunkMut.spare)

def transfers (c : CmsgBuffer) : List (List Handle) :=
  (scmRights c.bytes.length c.bytes).map (List.map c.table.handle)

/-- `Pipe::send_msg` encodes the handles that are queued. -/
def encodeQueued (c : CmsgBuffer) (handles : List Handle) : Exec CmsgBuffer :=
  if handles.isEmpty then
    return c
  else if HANDLE_QUEUE_LIMIT < handles.length then
    throw .handleArrayIndex
  else
    c.encodeHandles (handles.map c.table.number)

/-- `Pipe::send_msg`. The queued handles are descriptors of the process. -/
def sendMsg (c : CmsgBuffer) (buf : ConnectionBuffer) (r : Except IoError Nat) :
    Option (Exec (Except IoError Nat × CmsgBuffer × ConnectionBuffer × List Tok)) :=
  if !buf.handles.all c.table.has then none
  else if buf.buf.isEmpty then
    some (throw .sendEmpty)
  else
    match c.encodeQueued buf.handles with
    | .error p => some (throw p)
    | .ok c =>
        match r with
        | .ok n =>
            if n ≤ buf.buf.length then
              let toks := if n = 0 then [] else segment c.transfers.flatten (buf.buf.take n)
              some (return (.ok n, c.clear, buf.sent n, toks))
            else none
        | .error e => some (return (.error e, c, buf, []))

/-- `Pipe::recv_msg`. The kernel gives the process descriptors for what it
receives. -/
def recvMsg (c : CmsgBuffer) (buf : ConnectionBuffer) (r : Except IoError Nat) (w : List Tok) :
    Option (Exec (Except IoError Nat × CmsgBuffer × ConnectionBuffer × List Tok)) :=
  match r with
  | .error e => some (return (.error e, c.chunkMut, buf, w))
  | .ok n =>
      let frag := (splitBytes n w).1
      let fds := fdsOf frag
      if n ≤ (bytesOf w).length ∧ (ctls frag).length ≤ 1 ∧ fds.length ≤ SCM_MAX_FD ∧
          fds.all c.table.has then
        let c := c.recvControl (fds.map c.table.number)
        match decodeHandles c.bytes with
        | .error p => some (throw p)
        | .ok received =>
            match ConnectionBuffer.pushHandles
                { buf with buf := buf.buf ++ bytesOf frag } (received.map c.table.handle) with
            | .error p => some (throw p)
            | .ok buf' => some (return (.ok n, c.clear, buf', (splitBytes n w).2))
      else none

end CmsgBuffer

def unixCmsgPipe : PipeOps CmsgBuffer := ⟨CmsgBuffer.sendMsg, CmsgBuffer.recvMsg⟩

/-! ## What the bytes spell -/

/-- The bytes are a sequence of headers, each with the numbers of its
descriptors and padding. -/
inductive Spells (t : FdTable) : List (List Handle) → Bytes → Prop
  | nil : Spells t [] []
  | cons {hs : List Handle} {hss : List (List Handle)} {p rest : Bytes}
      (hhas : ∀ h ∈ hs, t.handle (t.number h) = h) (hlen : hs.length ≤ SCM_MAX_FD)
      (hpad : cmsgLen (4 * hs.length) + p.length = cmsgSpace (4 * hs.length))
      (hrest : Spells t hss rest) :
      Spells t (hs :: hss) (cmsghdr (cmsgLen (4 * hs.length)) SOL_SOCKET SCM_RIGHTS ++
        (asBytes (hs.map t.number) ++ (p ++ rest)))

section Spells

variable {t : FdTable} {hs : List Handle} {hss : List (List Handle)} {bytes pad rest : Bytes}

theorem Spells.length (h : Spells t hss bytes) :
    bytes.length = (hss.map fun hs => cmsgSpace (4 * hs.length)).sum := by
  induction h with
  | nil => rfl
  | cons _ _ hpad _ ih =>
      simp only [List.length_append, length_cmsghdr, length_asBytes, List.length_map, ih,
        List.map_cons, List.sum_cons, ← hpad, cmsgLen]
      omega

theorem Spells.append {hss' : List (List Handle)} {bytes' : Bytes} (h : Spells t hss bytes)
    (h' : Spells t hss' bytes') : Spells t (hss ++ hss') (bytes ++ bytes') := by
  induction h with
  | nil => exact h'
  | cons hhas hlen hpad _ ih =>
      simpa [List.append_assoc] using Spells.cons hhas hlen hpad ih

/-- What is read of the first header. -/
structure Headed (t : FdTable) (hs : List Handle) (bytes rest : Bytes) : Prop where
  len : cmsgLenOf bytes = cmsgLen (4 * hs.length)
  level : cmsgLevelOf bytes = SOL_SOCKET
  type : cmsgTypeOf bytes = SCM_RIGHTS
  le : cmsgLen (4 * hs.length) ≤ bytes.length
  fds : fdsOfBytes ((bytes.take (cmsgLen (4 * hs.length))).drop (cmsgLen 0)) = hs.map t.number
  rest : bytes.drop (cmsgSpace (4 * hs.length)) = rest
  has : ∀ h ∈ hs, t.handle (t.number h) = h

theorem Spells.headed (h : Spells t (hs :: hss) bytes) :
    ∃ rest, Headed t hs bytes rest ∧ Spells t hss rest := by
  cases h with
  | @cons _ _ pad rest hhas hlen hpad hrest =>
      have hdata : (asBytes (hs.map t.number)).length = 4 * hs.length := by
        rw [length_asBytes, List.length_map]
      have hbound : cmsgLen (4 * hs.length) < 256 ^ 8 := by
        unfold cmsgLen SCM_MAX_FD at *
        omega
      refine ⟨rest, ⟨cmsgLenOf_cmsghdr hbound .., cmsgLevelOf_cmsghdr _ (by decide) ..,
        cmsgTypeOf_cmsghdr _ _ (by decide) _, ?_, ?_, ?_, hhas⟩, hrest⟩
      · simp only [List.length_append, length_cmsghdr, hdata, cmsgLen]
        omega
      · rw [← List.append_assoc, List.take_left' (by simp [hdata, cmsgLen]),
          List.drop_left' (by simp [cmsgLen]), fdsOfBytes_asBytes]
      · rw [← List.append_assoc, ← List.append_assoc]
        refine List.drop_left' ?_
        rw [← hpad]
        simp only [List.length_append, length_cmsghdr, hdata, cmsgLen]

theorem Headed.decodeHandles (h : Headed t hs bytes rest) : decodeHandles bytes =
    if HANDLE_QUEUE_LIMIT < hs.length then .error .tooManyDescriptors
    else .ok (hs.map t.number) := by
  have hle := h.le
  have hheader : ¬ bytes.length < cmsgLen 0 := by
    unfold cmsgLen at *
    omega
  unfold Audioipc.decodeHandles
  rw [if_neg hheader, if_pos ⟨h.level, h.type⟩, h.len, if_pos ⟨Nat.le_add_right .., hle⟩, h.fds]
  simp only [List.length_map]
  rfl

theorem map_handle_number (h : ∀ h ∈ hs, t.handle (t.number h) = h) :
    (hs.map t.number).map t.handle = hs := by
  rw [List.map_map]
  exact (List.map_congr_left h).trans (List.map_id hs)

/-- The kernel transfers the descriptors of all headers. -/
theorem scmRights_spells (h : Spells t hss bytes) {fuel : Nat} (hfuel : bytes.length ≤ fuel) :
    (scmRights fuel bytes).map (List.map t.handle) = hss := by
  induction hss generalizing bytes fuel with
  | nil =>
      cases h
      cases fuel <;> rfl
  | cons hs hss ih =>
      obtain ⟨rest, hd, hrest⟩ := h.headed
      have hle := hd.le
      have hspace : (cmsgLen (4 * hs.length) + 7) / 8 * 8 = cmsgSpace (4 * hs.length) := by
        unfold cmsgLen cmsgSpace
        omega
      have hlen : rest.length = bytes.length - cmsgSpace (4 * hs.length) := by
        rw [← hd.rest, List.length_drop]
      cases fuel with
      | zero =>
          unfold cmsgLen at hle
          omega
      | succ fuel =>
          have hall : cmsgLen 0 ≤ bytes.length ∧ cmsgLen 0 ≤ cmsgLenOf bytes ∧
              cmsgLenOf bytes ≤ bytes.length := by
            rw [hd.len]
            unfold cmsgLen at *
            omega
          unfold scmRights
          rw [if_pos hall, hd.len, hd.fds, hspace, hd.rest, List.map_cons,
            map_handle_number hd.has, ih hrest]
          unfold cmsgLen cmsgSpace at *
          omega

end Spells

/-! ## The bytes and the headers -/

structure Rep (t : FdTable) (c : CmsgBuffer) (b : ControlBuffer) : Prop where
  table : c.table = t
  capacity : c.capacity = b.capacity
  aligned : 8 ∣ b.capacity
  spells : Spells t b.headers c.bytes

namespace Rep

variable {t : FdTable} {c c' : CmsgBuffer} {b : ControlBuffer} {hs : List Handle}

theorem length (h : Rep t c b) : c.bytes.length = b.len := h.spells.length

theorem aligned_len (b : ControlBuffer) : 8 ∣ b.len := by
  unfold ControlBuffer.len
  induction b.headers with
  | nil => exact Nat.dvd_zero 8
  | cons hs hss ih =>
      rw [List.map_cons, List.sum_cons]
      refine Nat.dvd_add ?_ ih
      unfold cmsgSpace
      omega

theorem clear (h : Rep t c b) : Rep t c.clear b.clear := ⟨h.table, h.capacity, h.aligned, .nil⟩

theorem chunkMut (h : Rep t c b) : Rep t c.chunkMut b.chunkMut := by
  unfold CmsgBuffer.chunkMut ControlBuffer.chunkMut
  rw [h.length, h.capacity]
  split
  · refine ⟨h.table, rfl, ?_, h.spells⟩
    have hlen := aligned_len b
    have haligned := h.aligned
    dsimp only
    omega
  · exact h

theorem spare (h : Rep t c b) : c.spare = b.spare := by
  rw [CmsgBuffer.spare, ControlBuffer.spare, h.capacity, h.length]

/-- A header that is written behind the others. -/
theorem write (h : Rep t c b) (hhas : ∀ h ∈ hs, t.handle (t.number h) = h)
    (hlen : hs.length ≤ SCM_MAX_FD) :
    Rep t (c.write (hs.map t.number) (cmsgSpace (4 * hs.length)))
      { b with headers := b.headers ++ [hs] } := by
  refine ⟨h.table, h.capacity, h.aligned, ?_⟩
  unfold CmsgBuffer.write
  rw [List.length_map]
  simp only [List.append_assoc]
  refine h.spells.append ?_
  have hpad := Nat.add_sub_cancel' (cmsgLen_le_cmsgSpace (4 * hs.length))
  have hone := Spells.cons hhas hlen (p := (List.range (cmsgSpace (4 * hs.length) -
    cmsgLen (4 * hs.length))).map fun i => c.memory ((c.bytes ++ (cmsghdr (cmsgLen
      (4 * hs.length)) SOL_SOCKET SCM_RIGHTS ++ asBytes (hs.map t.number))).length + i))
    (by simpa using hpad) .nil
  rwa [List.append_nil] at hone

theorem write_chunkMut (h : Rep t c b) (hhas : ∀ h ∈ hs, t.handle (t.number h) = h)
    (hlen : hs.length ≤ SCM_MAX_FD) :
    Rep t (c.chunkMut.write (hs.map t.number) (cmsgSpace (4 * hs.length)))
      { b.chunkMut with headers := b.headers ++ [hs] } := by
  have hheaders : b.chunkMut.headers = b.headers := by
    unfold ControlBuffer.chunkMut
    split <;> rfl
  have hwrite := h.chunkMut.write hhas hlen
  rwa [hheaders] at hwrite

theorem of_all (h : hs.all t.has = true) : ∀ h ∈ hs, t.handle (t.number h) = h := by
  intro x hx
  have := List.all_eq_true.mp h x hx
  simpa [FdTable.has] using this

theorem encodeHandles (h : Rep t c b) (hhas : hs.all t.has = true) :
    (∃ c' b', c.encodeHandles (hs.map t.number) = .ok c' ∧ b.encodeHandles hs = .ok b' ∧
      Rep t c' b') ∨
    ∃ p, c.encodeHandles (hs.map t.number) = .error p ∧ b.encodeHandles hs = .error p := by
  unfold CmsgBuffer.encodeHandles ControlBuffer.encodeHandles
  rw [List.length_map, h.chunkMut.spare]
  split
  · exact Or.inr ⟨_, rfl, rfl⟩
  · split
    · exact Or.inr ⟨_, rfl, rfl⟩
    · refine Or.inl ⟨_, _, rfl, rfl, h.write_chunkMut (of_all hhas) ?_⟩
      unfold HANDLE_QUEUE_LIMIT SCM_MAX_FD at *
      omega

theorem recvControl (h : Rep t c b) (hhas : hs.all t.has = true) (hlen : hs.length ≤ SCM_MAX_FD) :
    Rep t (c.recvControl (hs.map t.number)) (b.recvControl hs) := by
  unfold CmsgBuffer.recvControl ControlBuffer.recvControl
  rw [h.chunkMut.spare, ← List.map_take]
  generalize hdel : hs.take ((b.chunkMut.spare - cmsgLen 0) / 4) = delivered
  simp only [List.isEmpty_map, List.length_map]
  split
  · exact h.chunkMut
  · rename_i hne
    -- the chunk ends at a multiple of 8, so that the padding fits if the descriptors do
    have hspace : cmsgSpace (4 * delivered.length) ≤ b.chunkMut.spare := by
      have hcount : delivered.length ≤ (b.chunkMut.spare - cmsgLen 0) / 4 := by
        rw [← hdel]
        exact List.length_take_le ..
      have hpos : 0 < delivered.length := List.length_pos_iff.mpr (by simpa using hne)
      have haligned := h.chunkMut.aligned
      have hlen := aligned_len b.chunkMut
      unfold ControlBuffer.spare cmsgLen cmsgSpace at *
      omega
    have hmem : ∀ h ∈ delivered, h ∈ hs := fun h hh => List.mem_of_mem_take (hdel ▸ hh)
    rw [Nat.min_eq_left hspace]
    exact h.write_chunkMut (fun h hh => of_all hhas h (hmem h hh))
      (by rw [← hdel]; exact Nat.le_trans (List.length_take_le' ..) hlen)

theorem transfers (h : Rep t c b) : c.transfers = b.headers := by
  rw [CmsgBuffer.transfers, h.table]
  exact scmRights_spells h.spells (Nat.le_refl _)

/-- In particular the slice is never out of range. -/
theorem decodeHandles (h : Rep t c b) :
    (∃ hs, decodeHandles c.bytes = .ok (hs.map t.number) ∧ b.decodeHandles = .ok hs ∧
      ∀ h ∈ hs, t.handle (t.number h) = h) ∨
    (decodeHandles c.bytes = .error .tooManyDescriptors ∧
      b.decodeHandles = .error .tooManyDescriptors) := by
  have hspells := h.spells
  unfold ControlBuffer.decodeHandles
  cases hheaders : b.headers with
  | nil =>
      rw [hheaders] at hspells
      generalize c.bytes = bytes at hspells ⊢
      cases hspells
      exact Or.inl ⟨[], rfl, rfl, fun _ hh => by cases hh⟩
  | cons hs hss =>
      rw [hheaders] at hspells
      obtain ⟨rest, hd, -⟩ := hspells.headed
      rw [hd.decodeHandles]
      dsimp only
      split
      · exact Or.inr ⟨rfl, rfl⟩
      · exact Or.inl ⟨hs, rfl, rfl, hd.has⟩

theorem encodeQueued (h : Rep t c b) (hhas : hs.all t.has = true) :
    (∃ c' b', c.encodeQueued hs = .ok c' ∧ Audioipc.encodeQueued b hs = .ok b' ∧ Rep t c' b') ∨
    ∃ p, c.encodeQueued hs = .error p ∧ Audioipc.encodeQueued b hs = .error p := by
  unfold CmsgBuffer.encodeQueued Audioipc.encodeQueued
  rw [h.table]
  split
  · exact Or.inl ⟨c, b, rfl, rfl, h⟩
  · split
    · exact Or.inr ⟨_, rfl, rfl⟩
    · exact h.encodeHandles hhas

end Rep

/-! ## Pipes -/

/-- The same outcome, and states that are related. -/
inductive Same {P P' : Type} (R : P → P' → Prop) :
    Exec (Except IoError Nat × P × ConnectionBuffer × List Tok) →
    Exec (Except IoError Nat × P' × ConnectionBuffer × List Tok) → Prop
  | ok {p : P} {p' : P'} (hR : R p p') (r : Except IoError Nat) (b : ConnectionBuffer)
      (toks : List Tok) : Same R (.ok (r, p, b, toks)) (.ok (r, p', b, toks))
  | error (p : Panic) : Same R (.error p) (.error p)

/-- When a system call may be made. -/
structure PipeGuard where
  send : ConnectionBuffer → Prop
  recv : List Tok → Except IoError Nat → Prop

/-- What the first pipe does under the guard the second does too. -/
structure PipeOps.Refines {P P' : Type} (pipe : PipeOps P) (pipe' : PipeOps P')
    (R : P → P' → Prop) (g : PipeGuard) : Prop where
  send : ∀ {p p' b r x}, R p p' → g.send b → pipe.sendMsg p b r = some x →
    ∃ x', pipe'.sendMsg p' b r = some x' ∧ Same R x x'
  recv : ∀ {p p' b r w x}, R p p' → g.recv w r → pipe.recvMsg p b r w = some x →
    ∃ x', pipe'.recvMsg p' b r w = some x' ∧ Same R x x'

def anyCall : PipeGuard := ⟨fun _ => True, fun _ _ => True⟩

/-- The handles of a system call have numbers in the process, and are not more
than the kernel transfers at once. -/
def FdTable.numbers (t : FdTable) : PipeGuard where
  send b := b.handles.all t.has = true
  recv w
    | .ok n => (fdsOf (splitBytes n w).1).length ≤ SCM_MAX_FD ∧
        (fdsOf (splitBytes n w).1).all t.has = true
    | .error _ => True

theorem unixCmsgPipe_refines (t : FdTable) : unixCmsgPipe.Refines unixPipe (Rep t) anyCall where
  send := by
    intro c b buf r x hR _ h
    simp only [unixCmsgPipe, CmsgBuffer.sendMsg, hR.table] at h
    simp only [unixPipe, Pipe.sendMsg]
    split at h
    · cases h
    · rename_i hhas
      split at h
      · cases h
        exact ⟨_, if_pos ‹_›, .error _⟩
      · rename_i hne
        rw [if_neg hne]
        rcases hR.encodeQueued (by simpa using hhas) with ⟨c', b', hc, hb, hrep⟩ | ⟨p, hc, hb⟩
        · rw [hc] at h
          rw [hb]
          cases r with
          | error e =>
              cases h
              exact ⟨_, rfl, .ok hrep ..⟩
          | ok n =>
              dsimp only at h ⊢
              split at h
              · cases h
                rw [if_pos ‹_›, hrep.transfers]
                exact ⟨_, rfl, .ok hrep.clear ..⟩
              · cases h
        · rw [hc] at h
          rw [hb]
          cases h
          exact ⟨_, rfl, .error _⟩
  recv := by
    intro c b buf r w x hR _ h
    simp only [unixCmsgPipe, CmsgBuffer.recvMsg, hR.table] at h
    simp only [unixPipe, Pipe.recvMsg]
    cases r with
    | error e =>
        cases h
        exact ⟨_, rfl, .ok hR.chunkMut ..⟩
    | ok n =>
        dsimp only at h ⊢
        split at h
        · rename_i hmay
          obtain ⟨hn, hone, hlen, hhas⟩ := hmay
          rw [if_pos ⟨hn, hone⟩]
          have hrep := hR.recvControl hhas hlen
          rcases hrep.decodeHandles with ⟨hs, hc, hb, hhs⟩ | ⟨hc, hb⟩
          · rw [hc] at h
            rw [hb]
            dsimp only at h ⊢
            rw [hrep.table, map_handle_number hhs] at h
            generalize ConnectionBuffer.pushHandles _ hs = r at h ⊢
            cases r with
            | error p =>
                cases h
                exact ⟨_, rfl, .error _⟩
            | ok buf' =>
                cases h
                exact ⟨_, rfl, .ok hrep.clear ..⟩
          · rw [hc] at h
            rw [hb]
            cases h
            exact ⟨_, rfl, .error _⟩
        · cases h

theorem unixPipe_refines (t : FdTable) :
    unixPipe.Refines unixCmsgPipe (fun b c => Rep t c b) t.numbers where
  send := by
    intro b c buf r x hR hhas h
    simp only [unixPipe, Pipe.sendMsg] at h
    simp only [unixCmsgPipe, CmsgBuffer.sendMsg, hR.table]
    have hall : buf.handles.all t.has = true := hhas
    rw [hall]
    split at h
    · cases h
      exact ⟨_, if_pos ‹_›, .error _⟩
    · rename_i hne
      rw [if_neg (by simp), if_neg hne]
      rcases hR.encodeQueued hall with ⟨c', b', hc, hb, hrep⟩ | ⟨p, hc, hb⟩
      · rw [hb] at h
        rw [hc]
        cases r with
        | error e =>
            cases h
            exact ⟨_, rfl, .ok (R := fun b c => Rep t c b) hrep ..⟩
        | ok n =>
            dsimp only at h ⊢
            split at h
            · cases h
              rw [if_pos ‹_›, hrep.transfers]
              exact ⟨_, rfl, .ok (R := fun b c => Rep t c b) hrep.clear ..⟩
            · cases h
      · rw [hb] at h
        rw [hc]
        cases h
        exact ⟨_, rfl, .error _⟩
  recv := by
    intro b c buf r w x hR hmay h
    simp only [unixPipe, Pipe.recvMsg] at h
    simp only [unixCmsgPipe, CmsgBuffer.recvMsg, hR.table]
    cases r with
    | error e =>
        cases h
        exact ⟨_, rfl, .ok (R := fun b c => Rep t c b) hR.chunkMut ..⟩
    | ok n =>
        obtain ⟨hlen, hhas⟩ := hmay
        dsimp only at h ⊢
        split at h
        · rename_i hsplit
          rw [if_pos ⟨hsplit.1, hsplit.2, hlen, hhas⟩]
          have hrep := hR.recvControl hhas hlen
          rcases hrep.decodeHandles with ⟨hs, hc, hb, hhs⟩ | ⟨hc, hb⟩
          · rw [hb] at h
            rw [hc]
            dsimp only at h ⊢
            rw [hrep.table, map_handle_number hhs]
            generalize ConnectionBuffer.pushHandles _ hs = r at h ⊢
            cases r with
            | error p =>
                cases h
                exact ⟨_, rfl, .error _⟩
            | ok buf' =>
                cases h
                exact ⟨_, rfl, .ok (R := fun b c => Rep t c b) hrep.clear ..⟩
          · rw [hb] at h
            rw [hc]
            cases h
            exact ⟨_, rfl, .error _⟩
        · cases h

/-! ## Connections and links -/

section Connections

variable {P P' In Out H E : Type} [AssociateHandleForMessage In] [AssociateHandleForMessage Out]

/-- The same connection on another pipe. -/
abbrev Connection.withIo (c : Connection P In Out H) (io : P') : Connection P' In Out H :=
  ⟨c.phase, io, c.driver, c.inbound, c.outbound, c.panic, c.log⟩

/-- The step makes its system call under the guard. -/
def ConnAction.Meets (g : PipeGuard) (c : Connection P In Out H) (w : List Tok) :
    ConnAction E → Prop
  | .recvMsg r => g.recv w r
  | .sendMsg _ => g.send c.outbound
  | _ => True

variable {pipe : PipeOps P} {pipe' : PipeOps P'} {R : P → P' → Prop} {g : PipeGuard}
  {ops : HandlerOps In Out H E} {c c₁ : Connection P In Out H} {io : P'} {w w₁ toks : List Tok}

theorem recvInbound_refines (hpipe : pipe.Refines pipe' R g) (hR : R c.io io)
    {r : Except IoError Nat} (hg : g.recv w r) (h : c.recvInbound pipe ops w r = some (c₁, w₁)) :
    ∃ io₁, R c₁.io io₁ ∧
      (c.withIo io).recvInbound pipe' ops w r = some (c₁.withIo io₁, w₁) := by
  unfold Connection.recvInbound at h
  split at h
  · cases h
  · rename_i hrecv
    obtain ⟨x', hx', hsame⟩ := hpipe.recv hR hg hrecv
    cases hsame
    cases h
    refine ⟨io, hR, ?_⟩
    unfold Connection.recvInbound
    dsimp only [Connection.withIo]
    rw [hx']
    rfl
  · rename_i hrecv
    obtain ⟨x', hx', hsame⟩ := hpipe.recv hR hg hrecv
    cases hsame
    rename_i io₁ hR₁
    refine ⟨io₁, ?_, ?_⟩
    · dsimp only at h
      split at h <;> cases h <;> exact hR₁
    · unfold Connection.recvInbound
      dsimp only [Connection.withIo]
      rw [hx']
      dsimp only at h ⊢
      split at h <;> cases h <;> rfl

theorem sendOutbound_refines (hpipe : pipe.Refines pipe' R g) (hR : R c.io io) {done : Bool}
    {r : Except IoError Nat} (hg : g.send c.outbound)
    (h : c.sendOutbound pipe ops done r = some (c₁, toks)) :
    ∃ io₁, R c₁.io io₁ ∧
      (c.withIo io).sendOutbound pipe' ops done r = some (c₁.withIo io₁, toks) := by
  unfold Connection.sendOutbound at h
  split at h
  · cases h
  · rename_i hne
    split at h
    · cases h
    · rename_i hsend
      obtain ⟨x', hx', hsame⟩ := hpipe.send hR hg hsend
      cases hsame
      cases h
      refine ⟨io, hR, ?_⟩
      unfold Connection.sendOutbound
      rw [if_neg hne, hx']
      rfl
    · rename_i hsend
      obtain ⟨x', hx', hsame⟩ := hpipe.send hR hg hsend
      cases hsame
      rename_i io₁ hR₁
      unfold Connection.sendOutbound
      rw [if_neg hne, hx']
      dsimp only at h ⊢
      split at h <;> cases h
      · exact ⟨io, hR, rfl⟩
      all_goals exact ⟨io₁, hR₁, rfl⟩

variable [Bincode In] [Bincode Out]

omit [Bincode Out] in
theorem processInbound_withIo (io : P') {e : E} (h : c.processInbound ops e = some c₁) :
    c₁.io = c.io ∧ (c.withIo io).processInbound ops e = some (c₁.withIo io) := by
  unfold Connection.processInbound at h ⊢
  split at h
  · cases h
  · rename_i t ht
    rw [ht]
    dsimp only at h ⊢
    split at h <;> cases h <;> exact ⟨rfl, rfl⟩

omit [Bincode In] in
theorem flushOutbound_withIo (io : P') {done : Bool} {e : E}
    (h : c.flushOutbound ops done e = some c₁) :
    c₁.io = c.io ∧ (c.withIo io).flushOutbound ops done e = some (c₁.withIo io) := by
  unfold Connection.flushOutbound at h ⊢
  split at h
  · cases h
  · rename_i t ht
    rw [ht]
    dsimp only at h ⊢
    split at h <;> cases h <;> exact ⟨rfl, rfl⟩

omit [Bincode In] [Bincode Out] in
theorem finish_withIo (ops : HandlerOps In Out H E) (c : Connection P In Out H) (io : P')
    (done registered : Bool) : (c.finish ops done registered).io = c.io ∧
      (c.withIo io).finish ops done registered = (c.finish ops done registered).withIo io := by
  unfold Connection.finish
  dsimp only
  split <;> exact ⟨rfl, rfl⟩

/-- A step of the loop thread, or of another thread. -/
theorem step_refines (hpipe : pipe.Refines pipe' R g) (hR : R c.io io) {a : ConnAction E}
    (hg : a.Meets g c w) (h : c.step pipe ops w a = some (c₁, toks, w₁)) :
    ∃ io₁, R c₁.io io₁ ∧
      (c.withIo io).step pipe' ops w a = some (c₁.withIo io₁, toks, w₁) := by
  unfold Connection.step at h
  split at h
  · rename_i hph
    cases h
    exact ⟨io, hR, by unfold Connection.step; rw [hph]; rfl⟩
  · rename_i hph
    cases h
    exact ⟨io, hR, by unfold Connection.step; rw [hph]; rfl⟩
  · rename_i hph
    cases h
    exact ⟨io, hR, by unfold Connection.step; rw [hph]; rfl⟩
  · rename_i hph
    obtain ⟨⟨c₂, w₂⟩, hrecv, heq⟩ := Option.map_eq_some_iff.mp h
    cases heq
    obtain ⟨io₁, hR₁, hrecv'⟩ := recvInbound_refines hpipe hR hg hrecv
    exact ⟨io₁, hR₁, by unfold Connection.step; rw [hph]; dsimp only; rw [hrecv']; rfl⟩
  · rename_i hph
    obtain ⟨c₂, hproc, heq⟩ := Option.map_eq_some_iff.mp h
    cases heq
    obtain ⟨hio, hproc'⟩ := processInbound_withIo io hproc
    refine ⟨io, hio ▸ hR, ?_⟩
    unfold Connection.step
    rw [hph]
    dsimp only
    rw [hproc']
    rfl
  · rename_i hph
    obtain ⟨c₂, hflush, heq⟩ := Option.map_eq_some_iff.mp h
    cases heq
    obtain ⟨hio, hflush'⟩ := flushOutbound_withIo io hflush
    refine ⟨io, hio ▸ hR, ?_⟩
    unfold Connection.step
    rw [hph]
    dsimp only
    rw [hflush']
    rfl
  · rename_i hph
    obtain ⟨⟨c₂, toks₂⟩, hsend, heq⟩ := Option.map_eq_some_iff.mp h
    cases heq
    obtain ⟨io₁, hR₁, hsend'⟩ := sendOutbound_refines hpipe hR hg hsend
    exact ⟨io₁, hR₁, by unfold Connection.step; rw [hph]; dsimp only; rw [hsend']; rfl⟩
  · rename_i done registered hph
    split at h <;> cases h
    obtain ⟨hio, hfinish⟩ := finish_withIo ops c io done registered
    refine ⟨io, hio ▸ hR, ?_⟩
    unfold Connection.step
    rw [hph]
    dsimp only
    rw [if_pos ‹_›, hfinish]
  · rename_i done registered hph
    cases h
    obtain ⟨hio, hfinish⟩ := finish_withIo ops c io done registered
    refine ⟨io, hio ▸ hR, ?_⟩
    unfold Connection.step
    rw [hph]
    dsimp only
    rw [hfinish]
  · obtain ⟨handler, hops, heq⟩ := Option.map_eq_some_iff.mp h
    cases heq
    refine ⟨io, hR, ?_⟩
    rw [Connection.step_other]
    dsimp only
    rw [hops]
    rfl
  · cases h

end Connections

variable {Req Resp HC HS EC ES : Type} [Bincode Req] [AssociateHandleForMessage Req]
  [Bincode Resp] [AssociateHandleForMessage Resp]

/-- Two connections on new pipes, in processes with these descriptors. -/
def cmsgLink (client server : CmsgBuffer) (hc : HC) (hs : HS) : Link CmsgBuffer Req Resp HC HS where
  client := .new client hc
  server := .new server hs
  up := []
  down := []

section Links

variable {P P' : Type} {pipe : PipeOps P} {pipe' : PipeOps P'} {R R' : P → P' → Prop}
  {g g' : PipeGuard} {cops : HandlerOps Resp Req HC EC} {sops : HandlerOps Req Resp HS ES}

/-- The pipes of the two links agree, and all else is the same. -/
structure SameLink (R R' : P → P' → Prop) (k : Link P Req Resp HC HS)
    (k' : Link P' Req Resp HC HS) : Prop where
  clientPipe : R k.client.io k'.client.io
  serverPipe : R' k.server.io k'.server.io
  client : k'.client = k.client.withIo k'.client.io
  server : k'.server = k.server.withIo k'.server.io
  up : k'.up = k.up
  down : k'.down = k.down

omit [Bincode Req] [Bincode Resp] in
theorem SameLink.symm {k : Link P Req Resp HC HS} {k' : Link P' Req Resp HC HS}
    (h : SameLink R R' k k') : SameLink (fun p p' => R p' p) (fun p p' => R' p' p) k' k where
  clientPipe := h.clientPipe
  serverPipe := h.serverPipe
  client := by rw [h.client]
  server := by rw [h.server]
  up := h.up.symm
  down := h.down.symm

/-- Each end makes its system calls under its guard. -/
def LinkAction.Meets (g g' : PipeGuard) (k : Link P Req Resp HC HS) : LinkAction EC ES → Prop
  | .client a => a.Meets g k.client k.down
  | .server a => a.Meets g' k.server k.up

theorem link_step_refines (hpipe : pipe.Refines pipe' R g) (hpipe' : pipe.Refines pipe' R' g')
    {k k₁ : Link P Req Resp HC HS} {k' : Link P' Req Resp HC HS} {a : LinkAction EC ES}
    (hsame : SameLink R R' k k') (hg : a.Meets g g' k)
    (hstep : Link.step pipe cops sops k a = some k₁) :
    ∃ k₁', Link.step pipe' cops sops k' a = some k₁' ∧ SameLink R R' k₁ k₁' := by
  cases a with
  | client a =>
      obtain ⟨⟨c, toks, w⟩, hconn, rfl⟩ := Option.map_eq_some_iff.mp hstep
      obtain ⟨io, hR, hconn'⟩ := step_refines hpipe hsame.clientPipe hg hconn
      rw [← hsame.client, ← hsame.down] at hconn'
      exact ⟨_, Option.map_eq_some_iff.mpr ⟨_, hconn', rfl⟩, hR, hsame.serverPipe, rfl,
        hsame.server, congrArg (· ++ toks) hsame.up, rfl⟩
  | server a =>
      obtain ⟨⟨c, toks, w⟩, hconn, rfl⟩ := Option.map_eq_some_iff.mp hstep
      obtain ⟨io, hR, hconn'⟩ := step_refines hpipe' hsame.serverPipe hg hconn
      rw [← hsame.server, ← hsame.up] at hconn'
      exact ⟨_, Option.map_eq_some_iff.mpr ⟨_, hconn', rfl⟩, hsame.clientPipe, hR, hsame.client,
        rfl, rfl, congrArg (· ++ toks) hsame.down⟩

end Links

end Audioipc

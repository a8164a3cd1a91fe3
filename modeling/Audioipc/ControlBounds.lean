import Audioipc.Lts
import Audioipc.UnixPipe

/-!
# The bounds of the control buffer

`encode_handles` writes into the chunk that `chunk_mut` returns, of which its
assertion says nothing, and `recvmsg` gets that chunk for what it receives. Both
find the room they need (`Fits`) in a buffer that was left empty, since no call
makes the buffer smaller than `Pipe::new` made it (`Roomy`).

A `send_msg` that fails leaves the handles it has encoded in the buffer. The
next call finds them there, unless it is a send without handles.
-/

namespace Audioipc

/-- A call on the pipe, and what the kernel does in it. -/
inductive PipeCall where
  | send (buf : ConnectionBuffer) (r : Except IoError Nat)
  | recv (buf : ConnectionBuffer) (r : Except IoError Nat) (w : List Tok)

/-- The bytes of the control buffer that the call may write: a header with the
queued handles, if `encode_handles` is called; one with as many descriptors as
the other side may send. -/
def PipeCall.space : PipeCall → Nat
  | .send buf _ =>
      if buf.buf.isEmpty ∨ buf.handles.isEmpty then 0 else cmsgSpace (4 * buf.handles.length)
  | .recv .. => cmsgSpace (4 * HANDLE_QUEUE_LIMIT)

namespace ControlBuffer

/-- A call that does not panic. -/
def step (cmsg : ControlBuffer) : PipeCall → Option ControlBuffer
  | .send buf r =>
      match Pipe.sendMsg cmsg buf r with
      | some (.ok (_, cmsg, _, _)) => some cmsg
      | _ => none
  | .recv buf r w =>
      match Pipe.recvMsg cmsg buf r w with
      | some (.ok (_, cmsg, _, _)) => some cmsg
      | _ => none

/-- The chunk is large enough for what the call may write. -/
def Fits (cmsg : ControlBuffer) (call : PipeCall) : Prop := call.space ≤ cmsg.chunkMut.spare

instance (cmsg : ControlBuffer) (call : PipeCall) : Decidable (cmsg.Fits call) :=
  inferInstanceAs (Decidable (_ ≤ _))

/-- No earlier call has left anything in the buffer. -/
def Emptied (cmsg : ControlBuffer) (_ : PipeCall) : Prop := cmsg.headers = []

instance (cmsg : ControlBuffer) (call : PipeCall) : Decidable (cmsg.Emptied call) :=
  inferInstanceAs (Decidable (_ = _))

variable {cmsg cmsg' : ControlBuffer} {call : PipeCall}

/-- `encode_handles` cannot fail but for lack of room. -/
theorem encodeQueued_error_iff {buf : ConnectionBuffer} {r : Except IoError Nat} {p : Panic}
    (hbuf : ¬ buf.buf.isEmpty = true) : encodeQueued cmsg buf.handles = .error p ↔
      p = .cmsgOverrun ∧ ¬ cmsg.Fits (.send buf r) := by
  have hle : ¬ HANDLE_QUEUE_LIMIT < buf.handles.length := Nat.not_lt.mpr buf.handles_le
  unfold encodeQueued Fits PipeCall.space
  dsimp only
  by_cases hhandles : buf.handles.isEmpty = true
  · rw [if_pos hhandles, if_pos (Or.inr hhandles)]
    exact ⟨fun h => (by cases h), fun h => absurd (Nat.zero_le _) h.2⟩
  · rw [if_neg hhandles, if_neg hle, if_neg (not_or.mpr ⟨hbuf, hhandles⟩), Nat.not_le]
    unfold encodeHandles
    rw [if_neg hle]
    split
    · rename_i hlt
      exact ⟨fun h => ⟨(Except.error.inj h).symm, hlt⟩, fun h => by rw [h.1]; rfl⟩
    · rename_i hfits
      exact ⟨fun h => (by cases h), fun h => absurd h.2 hfits⟩

/-- Where the call does not fit, `send_msg` writes past the end of the chunk. -/
theorem sendMsg_overrun_iff {buf : ConnectionBuffer} {r : Except IoError Nat} :
    Pipe.sendMsg cmsg buf r = some (.error .cmsgOverrun) ↔ ¬ cmsg.Fits (.send buf r) := by
  unfold Pipe.sendMsg
  by_cases hbuf : buf.buf.isEmpty = true
  · rw [if_pos hbuf]
    refine ⟨fun h => (by cases h), fun h => absurd ?_ h⟩
    unfold Fits PipeCall.space
    dsimp only
    rw [if_pos (Or.inl hbuf)]
    exact Nat.zero_le _
  rw [if_neg hbuf]
  cases hencode : encodeQueued cmsg buf.handles with
  | error p =>
      obtain ⟨rfl, hfits⟩ := (encodeQueued_error_iff (r := r) hbuf).mp hencode
      exact ⟨fun _ => hfits, fun _ => rfl⟩
  | ok cmsg' =>
      refine ⟨fun h => ?_, fun hfits => ?_⟩
      · cases r with
        | ok n =>
            dsimp only at h
            split at h <;> cases h
        | error e => cases h
      · rw [(encodeQueued_error_iff hbuf).mpr ⟨rfl, hfits⟩] at hencode
        cases hencode

/-! ## The capacity -/

/-- The buffer is as large as `Pipe::new` made it, at least. -/
def Roomy (cmsg : ControlBuffer) : Prop := new.capacity ≤ cmsg.capacity

theorem Roomy.chunkMut (h : cmsg.Roomy) : cmsg.chunkMut.Roomy := by
  unfold ControlBuffer.chunkMut
  split
  · unfold Roomy at *
    dsimp only
    omega
  · exact h

theorem Roomy.encodeQueued (h : cmsg.Roomy) {handles : List Handle}
    (hs : Audioipc.encodeQueued cmsg handles = .ok cmsg') : cmsg'.Roomy := by
  unfold Audioipc.encodeQueued encodeHandles at hs
  split at hs
  · cases hs
    exact h
  · split at hs
    · cases hs
    · split at hs
      · cases hs
      · cases hs
        exact h.chunkMut

theorem Roomy.recvControl (h : cmsg.Roomy) (fds : List Handle) : (cmsg.recvControl fds).Roomy := by
  unfold ControlBuffer.recvControl
  dsimp only
  split <;> exact h.chunkMut

theorem step_roomy (h : cmsg.Roomy) (hs : cmsg.step call = some cmsg') : cmsg'.Roomy := by
  cases call with
  | send buf r =>
      simp only [step] at hs
      split at hs
      · rename_i hsend
        cases hs
        unfold Pipe.sendMsg at hsend
        split at hsend
        · cases hsend
        · split at hsend
          · cases hsend
          · rename_i hencode
            have hroomy := h.encodeQueued hencode
            split at hsend
            · split at hsend <;> cases hsend
              exact hroomy
            · cases hsend
              exact hroomy
      · cases hs
  | recv buf r w =>
      simp only [step] at hs
      split at hs
      · rename_i hrecv
        cases hs
        unfold Pipe.recvMsg at hrecv
        split at hrecv
        · cases hrecv
          exact h.chunkMut
        · dsimp only at hrecv
          split at hrecv
          · split at hrecv
            · cases hrecv
            · split at hrecv <;> cases hrecv
              exact h.recvControl _
          · cases hrecv
      · cases hs

/-! ## The bounds -/

theorem space_le (call : PipeCall) : call.space ≤ new.capacity := by
  cases call with
  | send buf r =>
      unfold PipeCall.space
      dsimp only
      split
      · exact Nat.zero_le _
      · have hle := buf.handles_le
        unfold new cmsgSpace
        dsimp only
        omega
  | recv => exact Nat.le_refl _

theorem Roomy.fits (h : cmsg.Roomy) (hempty : cmsg.headers = []) (call : PipeCall) :
    cmsg.Fits call := by
  have hlen : cmsg.len = 0 := by
    unfold len
    rw [hempty]
    rfl
  have hne : cmsg.len ≠ cmsg.capacity := by
    have hcapacity : 0 < new.capacity := by decide
    unfold Roomy at h
    omega
  unfold Fits ControlBuffer.chunkMut
  rw [if_neg hne]
  unfold spare
  rw [hlen]
  exact Nat.le_trans (space_le call) h

/-- If each call finds the buffer empty, each finds the room it needs. -/
theorem control_buffer_fits {calls : List PipeCall} (h : Lts.Within step Emptied new calls) :
    Lts.Within step Fits new calls :=
  Lts.Within.imp_of_invariant (fun _ _ _ hroomy hs => step_roomy hroomy hs)
    (fun _ call hroomy hempty => hroomy.fits hempty call) (Nat.le_refl new.capacity) h

def queued (n : Nat) (h : n ≤ HANDLE_QUEUE_LIMIT) : ConnectionBuffer :=
  ⟨[0], List.replicate n 0, by rwa [List.length_replicate]⟩

theorem control_buffer_fits_run :
    Lts.Within step Emptied new
      [.send (queued 16 (by decide)) (.ok 1), .recv .empty (.error .wouldBlock) []] ∧
    Lts.Within step Fits new
      [.send (queued 16 (by decide)) (.ok 1), .recv .empty (.error .wouldBlock) []] :=
  ⟨by decide, control_buffer_fits (by decide)⟩

/-- A send of one handle would block; there is no room for a receive then, and
none for a send of 16 handles, which writes past the end of the buffer. -/
theorem control_buffer_overrun :
    ¬ Lts.Within step Fits new
      [.send (queued 1 (by decide)) (.error .wouldBlock), .recv .empty (.ok 0) []] ∧
    ¬ Lts.Within step Fits new
      [.send (queued 1 (by decide)) (.error .wouldBlock),
       .send (queued 16 (by decide)) (.ok 1)] := by
  decide

end ControlBuffer

end Audioipc

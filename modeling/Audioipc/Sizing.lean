import Audioipc.ClientStream

/-!
# The size of the shared memory

`process_stream_create` sizes the shared memory for one second of audio, and
`process_stream_init` caps the latency it asks of cubeb at one second. The
two are in different handlers, and both do unchecked `u32` arithmetic on
parameters whose limits are set in a third place. `shm_covers_latency` puts
them together: with accepted parameters nothing overflows, and every block
of frames up to the latency fits into the memory, for the server's data
callback and for the client's.
-/

namespace Audioipc

namespace CubebServer

variable {out : Outcome} {params : StreamCreateParams} {s s' : CubebServer}

theorem processStreamCreate_size {r : Item ClientMessage} {size : UInt64}
    (hsize : s.shmAreaSizeFor params = .ok size)
    (h : s.processStreamCreate out params = .ok (some r, s')) :
    ∃ slot, s'.streams out.key = some slot ∧ slot.params = some params ∧
      slot.cbs = { connectedCallbacks params size with connected := false } := by
  unfold processStreamCreate at h
  split at h
  · cases h
  · rw [hsize, ok_bind] at h
    dsimp only at h
    split at h
    · split at h <;> cases h
      exact ⟨_, Function.update_self .., rfl, rfl⟩
    · cases h

theorem initStream_latency {token latency : Nat} {slot : ServerStream} {r : Item ClientMessage}
    (hlatency : streamLatency params = .ok latency)
    (h : s.initStream out token slot params = .ok (some r, s')) :
    ∃ slot' stream, s'.streams token = some slot' ∧ slot'.stream = some stream ∧
      stream.latency = latency := by
  unfold initStream at h
  dsimp only [bind, Except.bind] at h
  split at h
  · cases h
  · split at h
    · cases h
    · rw [hlatency] at h
      dsimp only at h
      split at h
      · cases h
      · split at h <;> cases h
        exact ⟨_, _, Function.update_self .., rfl, rfl⟩

/-- A block of `nframes` frames passes the checks of both data callbacks. `server`
is about `nframes ≠ 0`, as the callback refuses an empty output before it looks
at `nframes`; that the buffers fit, which its arguments also say, is `input` and
`output`. -/
structure BlockFits (params : StreamCreateParams) (size : UInt64) (nframes : Nat) : Prop where
  input : nframes * inputFrameSize params ≤ size.toNat
  output : nframes * outputFrameSize params ≤ size.toNat
  server : ∀ input output, DataCallbackArgs params size nframes input output →
    ¬ (connectedCallbacks params size).Refuses input output
  clientInput : (checkedMul nframes (inputFrameSize params)).filter (· ≤ size.toNat) =
    some (nframes * inputFrameSize params)
  clientOutput : (checkedMul nframes (outputFrameSize params)).filter (· ≤ size.toNat) =
    some (nframes * outputFrameSize params)

/-- A frame of a direction that is absent takes nothing. -/
theorem blockFits_of_le {size : UInt64} {nframes rate : Nat} (hvalid : params.Valid)
    (hle : nframes ≤ rate)
    (hcovers : ∀ q ∈ params.directions, rate * q.frameSizeInBytes ≤ size.toNat) :
    BlockFits params size nframes := by
  have hfits : ∀ p : Option StreamParams, (∀ q, p = some q → q ∈ params.directions) →
      nframes * (p.map StreamParams.frameSizeInBytes).getD 0 ≤ size.toNat := by
    intro p hp
    cases p with
    | none => exact Nat.zero_le _
    | some q => exact Nat.le_trans (Nat.mul_le_mul_right _ hle) (hcovers q (hp q rfl))
  have hin := hfits params.inputStreamParams fun q hq =>
    List.mem_append_left _ (Option.mem_toList.mpr hq)
  have hout := hfits params.outputStreamParams fun q hq =>
    List.mem_append_right _ (Option.mem_toList.mpr hq)
  refine ⟨hin, hout, fun input output h => ?_, checkedMul_filter rfl hin size.toNat_lt,
    checkedMul_filter rfl hout size.toNat_lt⟩
  rintro (hc | ⟨-, hlong⟩ | ⟨hsome, hempty | hlong⟩)
  · cases hc
  · exact absurd h.inputFits (Nat.not_le.mpr hlong)
  · have := h.output_pos hvalid (by simpa [connectedCallbacks] using hsome)
    rw [hempty] at this
    exact absurd this (Nat.lt_irrefl 0)
  · exact absurd h.outputFits (Nat.not_le.mpr hlong)

/-- With accepted parameters and no size configured, the arithmetic of
`StreamCreate` and `StreamInit` does not overflow, the memory is whole
64 KiB with room for a second of each direction, the bounds of the latency
do not cross, and every block of frames up to the latency that cubeb is
asked for fits. -/
theorem shm_covers_latency (s : CubebServer) (hs : s.shmAreaSize = 0)
    (params : StreamCreateParams) (hvalid : validateStreamCreateParams params = .ok ()) :
    ∃ size rate minLatency latency,
      s.shmAreaSizeFor params = .ok size ∧ 2 ^ 16 ∣ size.toNat ∧
      (∀ p ∈ params.directions, p.rate.toNat * p.frameSizeInBytes ≤ size.toNat) ∧
      streamRate params = .ok rate ∧ 5 * rate < 2 ^ 32 ∧ 1 ≤ 5 * rate / 1000 ∧
      roundUpPow2 (5 * rate / 1000) = .ok minLatency ∧ minLatency ≤ rate ∧
      streamLatency params = .ok latency ∧ 5 * rate / 1000 ≤ latency ∧ latency ≤ rate ∧
      (∀ nframes ≤ latency, BlockFits params size nframes) ∧
      (∀ out r s', s.processStreamCreate out params = .ok (some r, s') →
        ∃ slot, s'.streams out.key = some slot ∧ slot.params = some params ∧
          slot.cbs = { connectedCallbacks params size with connected := false }) ∧
      (∀ out (s₁ : CubebServer) token slot r s',
        s₁.initStream out token slot params = .ok (some r, s') →
        ∃ slot' stream, s'.streams token = some slot' ∧ slot'.stream = some stream ∧
          stream.latency = latency) := by
  have hparams := validateStreamCreateParams_ok hvalid
  obtain ⟨size, hsize, hwhole, hcovers⟩ := estimateShmAreaSize_ok hparams
  obtain ⟨p, hp, minLatency, latency, hrate, hmul, hone, hround, hrange, hlatency, hlow, hhigh⟩ :=
    streamLatency_ok hparams
  have hshm : s.shmAreaSizeFor params = .ok size := by
    rw [shmAreaSizeFor, if_pos hs]
    exact hsize
  exact ⟨size, p.rate.toNat, minLatency, latency, hshm, hwhole, fun q hq => hcovers q hq q hq,
    hrate, hmul, hone, hround, hrange, hlatency, hlow, hhigh,
    fun nframes hle => blockFits_of_le hparams (Nat.le_trans hle hhigh) (hcovers p hp),
    fun _ _ _ h => processStreamCreate_size hshm h,
    fun _ _ _ _ _ _ h => initStream_latency hlatency h⟩

/-- A duplex stream at 48 kHz. -/
theorem shm_covers_latency_run :
    ∃ latency, streamLatency ClientStream.duplexStream = .ok latency ∧ ∀ nframes ≤ latency,
      ∃ size, (new 1 0).shmAreaSizeFor ClientStream.duplexStream = .ok size ∧
        BlockFits ClientStream.duplexStream size nframes := by
  obtain ⟨size, rate, minLatency, latency, hsize, -, -, -, -, -, -, -, hlatency, -, -, hfits, -⟩ :=
    shm_covers_latency (new 1 0) rfl ClientStream.duplexStream rfl
  exact ⟨latency, hlatency, fun nframes hle => ⟨size, hsize, hfits nframes hle⟩⟩

end CubebServer

end Audioipc

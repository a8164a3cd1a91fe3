import Audioipc.Callbacks

/-!
# The server's data callback against any client

The reply to a data callback comes from the client, and is checked against
three lengths that do not depend on each other: the frames that cubeb asked
for, the output buffer and the shared memory. `data_callback_safe` says that
the checks are enough, whatever the reply.

An error is reported to cubeb only if the RPC failed or its reply is not a
number of frames in range, with one exception (`errors_are_real`): an empty
output buffer is an error before the shortcut for zero frames is looked at,
so only a stream without an output takes that shortcut.
-/

namespace Audioipc

namespace ServerStreamCallbacks

/-- Whatever the client replies, a data callback returns an error and leaves
the output alone, or returns a number of frames that was asked for and sets
just these frames of the output, from the start of the shared memory. -/
theorem data_callback_safe (cbs : ServerStreamCallbacks) (m : Memory) (input output : Bytes)
    (nframes : Int) (serve : CallbackReq → Memory → Option CallbackResp × Memory) :
    ∃ result output' m',
      (cbs.dataCallback m input output nframes).run serve = .ok (result, output', m') ∧
      output'.length = output.length ∧
      ((result = CUBEB_ERROR ∧ output' = output) ∨
        (0 ≤ result ∧ result ≤ nframes ∧
          cbs.outputBytes result ≤ min output.length cbs.shm.size.toNat ∧
          ∀ i, output'[i]? = if i < cbs.outputBytes result then some (m' i) else output[i]?)) := by
  obtain ⟨m₁, ⟨-, heq⟩ | ⟨-, rfl, heq⟩ | ⟨-, -, heq⟩⟩ :=
    cbs.dataCallback_cases m input output nframes <;> rw [heq]
  · exact ⟨_, _, _, rfl, rfl, Or.inl ⟨rfl, rfl⟩⟩
  · have hzero : cbs.outputBytes 0 = 0 := Nat.zero_mul _
    refine ⟨_, _, _, rfl, rfl, Or.inr ⟨Int.le_refl 0, Int.le_refl 0, ?_, fun i => ?_⟩⟩
    · rw [hzero]; exact Nat.zero_le _
    · rw [hzero, if_neg (Nat.not_lt_zero i)]
  · simp only [Callback.run]
    generalize serve (.data nframes) m₁ = reply
    obtain ⟨r, m'⟩ := reply
    by_cases h : ∃ frames, r = some (.data frames) ∧ cbs.Accepts output nframes frames
    · obtain ⟨frames, rfl, haccepts⟩ := h
      rw [dataResponse_accepted haccepts]
      obtain ⟨hnonneg, hle, houtput, hshm⟩ := haccepts
      refine ⟨_, _, _, rfl, ?_, Or.inr ⟨hnonneg, hle, Nat.le_min.mpr ⟨houtput, hshm⟩,
        fun i => ?_⟩⟩
      · simp only [List.length_append, Memory.length_read, List.length_drop]
        omega
      · split
        · rename_i hi
          rw [List.getElem?_append_left (by simpa using hi), Memory.getElem?_read hi]
        · rename_i hi
          rw [List.getElem?_append_right (by simpa using hi), Memory.length_read,
            List.getElem?_drop]
          congr 1
          omega
    · rw [dataResponse_rejected fun frames heq haccepts => h ⟨frames, heq, haccepts⟩]
      exact ⟨_, _, _, rfl, rfl, Or.inl ⟨rfl, rfl⟩⟩

/-! ## When an error is reported -/

/-- The buffers that `data_cb_c` makes of cubeb's pointers, when they fit
into the shared memory. -/
structure CallbackBuffers (cbs : ServerStreamCallbacks) (nframes : Nat) (input output : Bytes) :
    Prop where
  inputLength : input.length = nframes * cbs.inputFrameSize.getD 0
  outputLength : output.length = nframes * cbs.outputFrameSize.getD 0
  inputFits : input.length ≤ cbs.shm.size.toNat
  outputFits : output.length ≤ cbs.shm.size.toNat

/-- The RPC has failed, or its reply is not a number of frames in range. -/
def RpcFailed (nframes : Nat) : Option CallbackResp → Prop
  | some (.data frames) => ¬ (0 ≤ frames ∧ frames ≤ nframes)
  | _ => True

variable {cbs : ServerStreamCallbacks} {m : Memory} {input output : Bytes} {nframes : Nat}
  {serve : CallbackReq → Memory → Option CallbackResp × Memory}

/-- With buffers of these sizes only an empty output is refused. -/
theorem CallbackBuffers.refuses_iff (h : CallbackBuffers cbs nframes input output)
    (hconnected : cbs.connected = true) :
    cbs.Refuses input output ↔ cbs.outputFrameSize.isSome ∧ output = [] := by
  constructor
  · rintro (hc | ⟨-, hlong⟩ | ⟨hsome, hempty | hlong⟩)
    · rw [hconnected] at hc; cases hc
    · exact absurd h.inputFits (Nat.not_le.mpr hlong)
    · exact ⟨hsome, hempty⟩
    · exact absurd h.outputFits (Nat.not_le.mpr hlong)
  · rintro ⟨hsome, hempty⟩
    exact Or.inr (Or.inr ⟨hsome, Or.inl hempty⟩)

theorem CallbackBuffers.accepts (h : CallbackBuffers cbs nframes input output) {frames : Int}
    (hnonneg : 0 ≤ frames) (hle : frames ≤ nframes) : cbs.Accepts output nframes frames := by
  have hbytes : cbs.outputBytes frames ≤ output.length := by
    rw [h.outputLength]
    exact Nat.mul_le_mul_right _ (by omega)
  exact ⟨hnonneg, hle, hbytes, Nat.le_trans hbytes h.outputFits⟩

/-- The result of the RPC is an error exactly when the RPC has failed. -/
theorem CallbackBuffers.dataResponse (h : CallbackBuffers cbs nframes input output)
    (r : Option CallbackResp) (m : Memory) : ∃ result output',
    cbs.dataResponse output nframes r m = .ok (result, output', m) ∧
      (result = CUBEB_ERROR ↔ RpcFailed nframes r) := by
  by_cases hr : ∃ frames : Int, r = some (.data frames) ∧ 0 ≤ frames ∧ frames ≤ nframes
  · obtain ⟨frames, rfl, hnonneg, hle⟩ := hr
    refine ⟨_, _, dataResponse_accepted (h.accepts hnonneg hle), fun heq => ?_, fun hfailed => ?_⟩
    · rw [heq] at hnonneg
      exact absurd hnonneg (by decide)
    · exact absurd ⟨hnonneg, hle⟩ hfailed
  · refine ⟨_, _, dataResponse_rejected fun frames heq haccepts =>
      hr ⟨frames, heq, haccepts.nonneg, haccepts.le⟩, fun _ => ?_, fun _ => rfl⟩
    unfold RpcFailed
    split
    · exact fun hrange => hr ⟨_, rfl, hrange⟩
    · trivial

/-- An error is reported exactly when the RPC was made and has failed, and
with zero frames nothing is done. -/
structure ErrorsAreReal (cbs : ServerStreamCallbacks) (m : Memory) (input output : Bytes)
    (nframes : Nat) (serve : CallbackReq → Memory → Option CallbackResp × Memory) : Prop where
  error : ∃ result output' m',
    (cbs.dataCallback m input output nframes).run serve = .ok (result, output', m') ∧
    (result = CUBEB_ERROR ↔ ∃ r, (cbs.dataCallback m input output nframes).answer serve = some r ∧
      RpcFailed nframes r)
  zero : nframes = 0 → (cbs.dataCallback m input output nframes).request = none ∧
    ∃ output' m',
      (cbs.dataCallback m input output nframes).run serve = .ok (0, output', m')

/-- Errors are real exactly for streams without an output and for output
buffers that are not empty. -/
theorem errors_are_real (cbs : ServerStreamCallbacks) (hconnected : cbs.connected = true)
    (m : Memory) (nframes : Nat) (input output : Bytes)
    (h : CallbackBuffers cbs nframes input output)
    (serve : CallbackReq → Memory → Option CallbackResp × Memory) :
    ErrorsAreReal cbs m input output nframes serve ↔
      cbs.outputFrameSize = none ∨ output ≠ [] := by
  have hcases := cbs.dataCallback_cases m input output nframes
  rw [h.refuses_iff hconnected] at hcases
  have hgood : ¬ (cbs.outputFrameSize.isSome ∧ output = []) ↔
      cbs.outputFrameSize = none ∨ output ≠ [] := by
    rw [Decidable.not_and_iff_not_or_not, Option.not_isSome_iff_eq_none]
  obtain ⟨m₁, ⟨hrefused, heq⟩ | ⟨hno, hzero, heq⟩ | ⟨hno, hpos, heq⟩⟩ := hcases
  · refine ⟨fun hreal => ?_, fun hgood' => absurd hrefused (hgood.mpr hgood')⟩
    -- an error without an RPC
    obtain ⟨result, output', m', hrun, hiff⟩ := hreal.error
    rw [heq] at hrun hiff
    cases hrun
    obtain ⟨r, hanswer, -⟩ := hiff.mp rfl
    cases hanswer
  · refine ⟨fun _ => hgood.mp hno, fun _ => ⟨?_, fun _ => ?_⟩⟩ <;> rw [heq]
    · refine ⟨_, _, _, rfl, fun herr => ?_, fun ⟨r, hanswer, _⟩ => ?_⟩
      · cases herr
      · cases hanswer
    · exact ⟨rfl, _, _, rfl⟩
  · refine ⟨fun _ => hgood.mp hno, fun _ => ⟨?_, fun hzero => ?_⟩⟩
    · obtain ⟨result, output', hresponse, hiff⟩ :=
        h.dataResponse (serve (.data nframes) m₁).1 (serve (.data nframes) m₁).2
      rw [heq]
      exact ⟨result, output', _, hresponse, hiff.trans ⟨fun hf => ⟨_, rfl, hf⟩,
        fun ⟨r, hanswer, hf⟩ => Option.some.inj hanswer ▸ hf⟩⟩
    · exact absurd (congrArg Nat.cast hzero) hpos

/-- A duplex stream that is asked for one frame, and whose client fails. -/
theorem errors_are_real_run :
    let cbs : ServerStreamCallbacks := ⟨some 2, some 4, ⟨65536⟩, true⟩
    ErrorsAreReal cbs (fun _ => 0) [1, 2] [0, 0, 0, 0] 1 (fun _ m => (none, m)) :=
  (errors_are_real ⟨some 2, some 4, ⟨65536⟩, true⟩ rfl (fun _ => 0) 1 [1, 2] [0, 0, 0, 0]
    ⟨rfl, rfl, by decide, by decide⟩ fun _ m => (none, m)).mpr (Or.inr (by decide))

/-- An output stream that is asked for no frames reports an error. -/
theorem zero_frames_error_run :
    let cbs : ServerStreamCallbacks := ⟨none, some 4, ⟨65536⟩, true⟩
    CallbackBuffers cbs 0 [] [] ∧
      (cbs.dataCallback (fun _ => 0) [] [] 0).request = none ∧
      (cbs.dataCallback (fun _ => 0) [] [] 0).run (fun _ m => (some (.data 0), m)) =
        .ok (CUBEB_ERROR, [], fun _ => 0) ∧
      ¬ ErrorsAreReal cbs (fun _ => 0) [] [] 0 (fun _ m => (some (.data 0), m)) := by
  intro cbs
  refine ⟨⟨rfl, rfl, by decide, by decide⟩, rfl, rfl, fun hreal => ?_⟩
  obtain ⟨-, output', m', hrun⟩ := hreal.zero rfl
  cases hrun

end ServerStreamCallbacks

end Audioipc

import Audioipc.Callbacks
import Audioipc.Params

/-!
# The data callback across processes

The client's half of the callbacks, `stream.rs`'s `CallbackServer`, and what
the two halves make together: cubeb calls the server, the server passes the
input through shared memory and makes its RPC, the client calls its own
callback on that memory, and the server copies the output back.

Both directions use the same memory from its start, so a client with both
copies the input away before it calls its callback.
-/

namespace Audioipc

/-- A client's data callback: what it returns and which bytes of the output
area it sets, from the input and the number of frames. -/
abbrev ClientDataCallback := Bytes → Nat → Int × (Nat → Option UInt8)

/-- Where the input of a client's callback is. -/
inductive InputPtr where
  | null
  | buf (bytes : Bytes)
  | shm (nbytes : Nat)

def InputPtr.bytes (m : Memory) : InputPtr → Bytes
  | .null => []
  | .buf bytes => bytes
  | .shm nbytes => m.read nbytes

/-- The memory after a callback has set bytes of an area at its start. -/
def Memory.set (m : Memory) (nbytes : Nat) (w : Nat → Option UInt8) : Memory :=
  fun i => if i < nbytes then (w i).getD (m i) else m i

/-- A call of a client's data callback: what is behind the input pointer
when it starts, and what is there when it returns. -/
structure DataCall where
  nframes : Nat
  inputBefore : Bytes
  inputAfter : Bytes
deriving Repr, DecidableEq

/-- A client has a buffer for the input exactly when it has both directions,
and the buffer is as large as the shared memory. -/
structure CallbackServer where
  shm : SharedMem
  inputFrameSize : Option Nat
  outputFrameSize : Option Nat
  duplexInput : Option { capacity : Nat // shm.size.toNat ≤ capacity }
  duplex : duplexInput.isSome = (inputFrameSize.isSome && outputFrameSize.isSome)

namespace CallbackServer

/-- `self.duplex_input`, filled. -/
def fillDuplexInput (srv : CallbackServer) (m : Memory) (inputNbytes : Nat) :
    Except ShmPanic (Option Bytes) :=
  match srv.duplexInput with
  | none => return none
  | some capacity =>
      if inputNbytes = 0 then throw .emptyInput
      else if capacity < inputNbytes then throw .duplexCapacity
      else return some (← srv.shm.getSlice m inputNbytes)

def inputPtr (srv : CallbackServer) (m : Memory) (inputNbytes : Nat) (buf : Option Bytes) :
    Except ShmPanic InputPtr :=
  if srv.inputFrameSize.isSome then
    match buf with
    | some buf => return .buf buf
    | none => do
        let _ ← srv.shm.getSlice m inputNbytes
        return .shm inputNbytes
  else return .null

/-- The size of the output area, empty if its pointer is null. -/
def outputArea (srv : CallbackServer) (m : Memory) (outputNbytes : Nat) : Except ShmPanic Nat :=
  if srv.outputFrameSize.isSome then do
    let _ ← srv.shm.getSlice m outputNbytes
    return outputNbytes
  else return 0

/-- The response, the memory after it, and the calls of the client's data
callback. -/
abbrev Response := Except ShmPanic (CallbackResp × Memory × List DataCall)

def processData (srv : CallbackServer) (cb : ClientDataCallback) (m : Memory) (nframes : Int) :
    Response :=
  if nframes < 0 then return (.error CUBEB_ERROR, m, [])
  else
    let inputFrameSize := srv.inputFrameSize.getD 0
    let outputFrameSize := srv.outputFrameSize.getD 0
    let shmSize := srv.shm.size.toNat
    match (checkedMul nframes.toNat inputFrameSize).filter (· ≤ shmSize) with
    | none => return (.error CUBEB_ERROR, m, [])
    | some inputNbytes =>
        match (checkedMul nframes.toNat outputFrameSize).filter (· ≤ shmSize) with
        | none => return (.error CUBEB_ERROR, m, [])
        | some outputNbytes => do
            let buf ← srv.fillDuplexInput m inputNbytes
            let input ← srv.inputPtr m inputNbytes buf
            let area ← srv.outputArea m outputNbytes
            let (frames, w) := cb (input.bytes m) nframes.toNat
            let m' := m.set area w
            return (.data frames, m', [⟨nframes.toNat, input.bytes m, input.bytes m'⟩])

def process (srv : CallbackServer) (cb : ClientDataCallback) (m : Memory) :
    CallbackReq → Response
  | .data nframes => srv.processData cb m nframes
  | .state _ => return (.state, m, [])
  | .deviceChange => return (.deviceChange, m, [])

end CallbackServer

/-- A callback of the server with its RPC answered by the client. A client
that panics drops the connection. -/
def Callback.remote (srv : CallbackServer) (cb : ClientDataCallback) :
    Callback ServerStreamCallbacks.DataResult → ServerStreamCallbacks.DataResult × List DataCall
  | .done r => (r, [])
  | .call req shm k =>
      match srv.process cb shm req with
      | .error _ => (k none shm, [])
      | .ok (resp, shm, calls) => (k (some resp) shm, calls)

/-! ## The two halves of one stream -/

/-- The server's half of a stream that is connected. -/
def connectedCallbacks (params : StreamCreateParams) (size : UInt64) : ServerStreamCallbacks where
  inputFrameSize := params.inputStreamParams.map StreamParams.frameSizeInBytes
  outputFrameSize := params.outputStreamParams.map StreamParams.frameSizeInBytes
  shm := ⟨size⟩
  connected := true

/-- The client's half; `capacity` is what `try_reserve_exact` has made of
the size. -/
def callbackServer (params : StreamCreateParams) (size : UInt64)
    (capacity : { capacity : Nat // size.toNat ≤ capacity }) : CallbackServer where
  shm := ⟨size⟩
  inputFrameSize := params.inputStreamParams.map StreamParams.frameSizeInBytes
  outputFrameSize := params.outputStreamParams.map StreamParams.frameSizeInBytes
  duplexInput :=
    if params.inputStreamParams.isSome && params.outputStreamParams.isSome then some capacity
    else none
  duplex := by
    cases params.inputStreamParams <;> cases params.outputStreamParams <;> rfl

section Refinement

variable {params : StreamCreateParams} {size : UInt64}
  {capacity : { capacity : Nat // size.toNat ≤ capacity }} {cb : ClientDataCallback} {m : Memory}
  {nframes : Nat} {input output : Bytes}

/-- The sizes of a frame of each direction, 0 for one that is absent. -/
def inputFrameSize (params : StreamCreateParams) : Nat :=
  (params.inputStreamParams.map StreamParams.frameSizeInBytes).getD 0

def outputFrameSize (params : StreamCreateParams) : Nat :=
  (params.outputStreamParams.map StreamParams.frameSizeInBytes).getD 0

/-- A data callback of cubeb on a stream: buffers for the directions the
stream has, that fit into the shared memory. -/
structure DataCallbackArgs (params : StreamCreateParams) (size : UInt64) (nframes : Nat)
    (input output : Bytes) : Prop where
  nonzero : 1 ≤ nframes
  inputLength : input.length = nframes * inputFrameSize params
  outputLength : output.length = nframes * outputFrameSize params
  inputFits : input.length ≤ size.toNat
  outputFits : output.length ≤ size.toNat

namespace DataCallbackArgs

variable (h : DataCallbackArgs params size nframes input output)
include h

theorem input_pos (hvalid : params.Valid) (hin : params.inputStreamParams.isSome) :
    0 < input.length := by
  obtain ⟨p, hp⟩ := Option.isSome_iff_exists.mp hin
  have hlength := h.inputLength
  simp only [inputFrameSize, hp, Option.map_some, Option.getD_some] at hlength
  rw [hlength]
  exact Nat.mul_pos h.nonzero (hvalid.input p hp).frameSize.1

theorem output_pos (hvalid : params.Valid) (hout : params.outputStreamParams.isSome) :
    0 < output.length := by
  obtain ⟨p, hp⟩ := Option.isSome_iff_exists.mp hout
  have hlength := h.outputLength
  simp only [outputFrameSize, hp, Option.map_some, Option.getD_some] at hlength
  rw [hlength]
  exact Nat.mul_pos h.nonzero (hvalid.output p hp).frameSize.1

theorem input_nil (hin : params.inputStreamParams = none) : input = [] := by
  have := h.inputLength
  simpa [inputFrameSize, hin] using this

theorem output_nil (hout : params.outputStreamParams = none) : output = [] := by
  have := h.outputLength
  simpa [outputFrameSize, hout] using this

end DataCallbackArgs

theorem Memory.write_nil (m : Memory) : m.write [] = m := rfl

theorem Memory.set_zero (m : Memory) (w : Nat → Option UInt8) : m.set 0 w = m := rfl

/-- The server passes the input on and makes one request. -/
theorem dataCallback_call (hvalid : params.Valid)
    (h : DataCallbackArgs params size nframes input output) :
    (connectedCallbacks params size).dataCallback m input output nframes =
      .call (.data nframes) (m.write input)
        ((connectedCallbacks params size).dataResponse output nframes) := by
  have houtput : ∀ m', (connectedCallbacks params size).dataOutput m' output nframes =
      .call (.data nframes) m' ((connectedCallbacks params size).dataResponse output nframes) := by
    intro m'
    unfold ServerStreamCallbacks.dataOutput
    rw [if_neg, if_neg]
    · have := h.nonzero
      omega
    · rintro ⟨hsome, hempty | hlong⟩
      · have := h.output_pos hvalid (by simpa [connectedCallbacks] using hsome)
        rw [List.isEmpty_iff.mp hempty] at this
        exact absurd this (Nat.lt_irrefl 0)
      · exact absurd h.outputFits (Nat.not_le.mpr hlong)
  unfold ServerStreamCallbacks.dataCallback
  rw [if_neg (by simp [connectedCallbacks])]
  cases hin : params.inputStreamParams with
  | none =>
      rw [if_neg (by simp [connectedCallbacks, hin]), houtput, h.input_nil hin, Memory.write_nil]
  | some p =>
      have hfits : input.length ≤ (connectedCallbacks params size).shm.size.toNat := h.inputFits
      rw [if_pos (by simp [connectedCallbacks, hin]), if_neg (by omega),
        SharedMem.copyIn_ok hfits]
      exact houtput _

theorem fillDuplexInput_ok (hvalid : params.Valid)
    (h : DataCallbackArgs params size nframes input output) :
    (callbackServer params size capacity).fillDuplexInput (m.write input) input.length =
      .ok (if params.inputStreamParams.isSome && params.outputStreamParams.isSome then some input
        else none) := by
  unfold CallbackServer.fillDuplexInput
  cases hdir : params.inputStreamParams.isSome && params.outputStreamParams.isSome with
  | false => simp [callbackServer, hdir, pure, Except.pure]
  | true =>
      have hpos := h.input_pos hvalid (Bool.and_eq_true _ _ ▸ hdir).1
      have hcapacity := Nat.le_trans h.inputFits capacity.2
      have hslice : (callbackServer params size capacity).shm.getSlice (m.write input)
          input.length = .ok input := by
        exact (SharedMem.getSlice_ok h.inputFits).trans (congrArg _ (Memory.read_write m input))
      have hbuf : (callbackServer params size capacity).duplexInput = some capacity := by
        simp only [callbackServer, hdir, if_true]
      rw [hbuf]
      dsimp only
      rw [if_neg (by omega), if_neg (by omega), hslice]
      rfl

/-- The input pointer is at the server's input, and the callback's own
output does not change what is there. -/
theorem inputPtr_ok (capacity : { capacity : Nat // size.toNat ≤ capacity }) (m : Memory)
    (h : DataCallbackArgs params size nframes input output) :
    ∃ ptr, (callbackServer params size capacity).inputPtr (m.write input) input.length
        (if params.inputStreamParams.isSome && params.outputStreamParams.isSome then some input
          else none) = .ok ptr ∧
      ptr.bytes (m.write input) = input ∧
      ∀ w, ptr.bytes ((m.write input).set output.length w) = input := by
  unfold CallbackServer.inputPtr
  cases hin : params.inputStreamParams with
  | none =>
      exact ⟨.null, by simp [callbackServer, hin, pure, Except.pure], (h.input_nil hin).symm,
        fun _ => (h.input_nil hin).symm⟩
  | some p =>
      rw [if_pos (by simp [callbackServer, hin])]
      cases hout : params.outputStreamParams with
      | some q => exact ⟨.buf input, rfl, rfl, fun _ => rfl⟩
      | none =>
          have hslice : (callbackServer params size capacity).shm.getSlice (m.write input)
              input.length = .ok ((m.write input).read input.length) :=
            SharedMem.getSlice_ok h.inputFits
          refine ⟨.shm input.length, ?_, Memory.read_write m input, fun w => ?_⟩
          · simp only [Option.isSome_some, Option.isSome_none, Bool.and_false]
            rw [if_neg Bool.false_ne_true, hslice]
            rfl
          · -- without an output there is no output area
            rw [h.output_nil hout, List.length_nil, Memory.set_zero]
            exact Memory.read_write m input

theorem outputArea_ok {m' : Memory} (h : DataCallbackArgs params size nframes input output) :
    (callbackServer params size capacity).outputArea m' output.length = .ok output.length := by
  unfold CallbackServer.outputArea
  cases hout : params.outputStreamParams with
  | none =>
      rw [if_neg (by simp [callbackServer, hout]), h.output_nil hout]
      rfl
  | some p =>
      have hslice : (callbackServer params size capacity).shm.getSlice m' output.length =
          .ok (m'.read output.length) := SharedMem.getSlice_ok h.outputFits
      rw [if_pos (by simp [callbackServer, hout]), hslice]
      rfl

theorem checkedMul_filter {a b n size : Nat} (hn : n = a * b) (h : n ≤ size)
    (hsize : size < 2 ^ 64) : (checkedMul a b).filter (· ≤ size) = some n := by
  subst hn
  rw [checkedMul_ok (by omega)]
  simp [h]

/-- The client calls its callback once, on the server's input. -/
theorem processData_ok (hvalid : params.Valid)
    (h : DataCallbackArgs params size nframes input output) :
    (callbackServer params size capacity).process cb (m.write input) (.data nframes) =
      .ok (.data (cb input nframes).1, (m.write input).set output.length (cb input nframes).2,
        [⟨nframes, input, input⟩]) := by
  obtain ⟨ptr, hptr, hbefore, hafter⟩ := inputPtr_ok capacity m h
  have hin : (checkedMul (nframes : Int).toNat
      ((callbackServer params size capacity).inputFrameSize.getD 0)).filter
        (· ≤ size.toNat) = some input.length :=
    checkedMul_filter h.inputLength h.inputFits size.toNat_lt
  have hout : (checkedMul (nframes : Int).toNat
      ((callbackServer params size capacity).outputFrameSize.getD 0)).filter
        (· ≤ size.toNat) = some output.length :=
    checkedMul_filter h.outputLength h.outputFits size.toNat_lt
  simp only [CallbackServer.process, CallbackServer.processData]
  rw [if_neg (by omega), show (callbackServer params size capacity).shm.size = size from rfl, hin]
  dsimp only
  rw [hout]
  dsimp only
  rw [fillDuplexInput_ok hvalid h, ok_bind, hptr, ok_bind, outputArea_ok h, ok_bind, hbefore,
    Int.toNat_natCast, hafter]
  rfl

theorem dataResponse_ok (h : DataCallbackArgs params size nframes input output) (r : Int)
    (m' : Memory) :
    (connectedCallbacks params size).dataResponse output nframes (some (.data r)) m' =
      .ok (if 0 ≤ r ∧ r ≤ nframes then
        (r, m'.read (r.toNat * outputFrameSize params) ++
          output.drop (r.toNat * outputFrameSize params), m')
      else (CUBEB_ERROR, output, m')) := by
  have hbytes : (connectedCallbacks params size).outputBytes r =
      r.toNat * outputFrameSize params := rfl
  by_cases hr : 0 ≤ r ∧ r ≤ nframes
  · have hle : r.toNat * outputFrameSize params ≤ output.length := by
      rw [h.outputLength]
      exact Nat.mul_le_mul_right _ (by omega)
    have haccepts : (connectedCallbacks params size).Accepts output nframes r :=
      ⟨hr.1, hr.2, hle, Nat.le_trans hle h.outputFits⟩
    rw [if_pos hr, ServerStreamCallbacks.dataResponse_accepted haccepts, hbytes]
  · rw [if_neg hr, ServerStreamCallbacks.dataResponse_rejected]
    rintro frames heq ⟨hnonneg, hle, -, -⟩
    cases heq
    exact hr ⟨hnonneg, hle⟩

/-- The remote data callback is the client's callback: it is called exactly
once, on the server's input and number of frames, which its output does not
disturb; if it returns a number of frames, that is the result and so many
frames of the output are what it has set, and otherwise the result is an
error and the output is as it was. -/
theorem remote_data_callback (params : StreamCreateParams)
    (hvalid : validateStreamCreateParams params = .ok ()) (size : UInt64)
    (capacity : { capacity : Nat // size.toNat ≤ capacity }) (cb : ClientDataCallback) (m : Memory)
    (nframes : Nat) (input output : Bytes)
    (h : DataCallbackArgs params size nframes input output) :
    ∃ result output' m',
      ((connectedCallbacks params size).dataCallback m input output nframes).remote
        (callbackServer params size capacity) cb =
          (.ok (result, output', m'), [⟨nframes, input, input⟩]) ∧
      output'.length = output.length ∧
      (0 ≤ (cb input nframes).1 ∧ (cb input nframes).1 ≤ nframes →
        result = (cb input nframes).1 ∧
        ∀ i, output'[i]? =
          if i < (cb input nframes).1.toNat * outputFrameSize params then
            some (((cb input nframes).2 i).getD (m.write input i))
          else output[i]?) ∧
      (¬ (0 ≤ (cb input nframes).1 ∧ (cb input nframes).1 ≤ nframes) →
        result = CUBEB_ERROR ∧ output' = output) := by
  have hparams := validateStreamCreateParams_ok hvalid
  rw [dataCallback_call hparams h]
  unfold Callback.remote
  dsimp only
  rw [processData_ok hparams h]
  dsimp only
  rw [dataResponse_ok h]
  generalize cb input nframes = rw
  obtain ⟨r, w⟩ := rw
  by_cases hr : 0 ≤ r ∧ r ≤ nframes
  · have hbytes : r.toNat * outputFrameSize params ≤ output.length := by
      rw [h.outputLength]
      exact Nat.mul_le_mul_right _ (by omega)
    simp only [if_pos hr]
    refine ⟨_, _, _, rfl, ?_, fun _ => ⟨rfl, fun i => ?_⟩, fun hn => absurd hr hn⟩
    · simp only [List.length_append, Memory.length_read, List.length_drop]
      omega
    · split
      · rename_i hi
        rw [List.getElem?_append_left (by simpa using hi), Memory.getElem?_read hi]
        simp [Memory.set, Nat.lt_of_lt_of_le hi hbytes]
      · rename_i hi
        rw [List.getElem?_append_right (by simpa using hi), Memory.length_read,
          List.getElem?_drop]
        congr 1
        omega
  · simp only [if_neg hr]
    exact ⟨_, _, _, rfl, rfl, fun h => absurd h hr, fun _ => ⟨rfl, rfl⟩⟩

/-- Mono input and stereo output; the callback returns one frame of two. -/
theorem remote_data_callback_run :
    let params : StreamCreateParams := {
      streamName := none, inputDevice := 0, outputDevice := 0, latencyFrames := 0,
      inputStreamParams := some ⟨CUBEB_SAMPLE_S16LE, 48000, 1, 0, 0, 0⟩,
      outputStreamParams := some ⟨CUBEB_SAMPLE_S16LE, 48000, 2, 0, 0, 0⟩ }
    let cb : ClientDataCallback := fun input _ => (1, fun i => input[i]?.map (· + 1))
    ∃ output' m', ((connectedCallbacks params 16).dataCallback (fun _ => 0) [1, 2, 3, 4]
        [9, 9, 9, 9, 9, 9, 9, 9] 2).remote (callbackServer params 16 ⟨16, by decide⟩) cb =
      (.ok (1, output', m'), [⟨2, [1, 2, 3, 4], [1, 2, 3, 4]⟩]) ∧
      output'[0]? = some 2 ∧ output'[3]? = some 5 ∧ output'[4]? = some 9 := by
  intro params cb
  obtain ⟨result, output', m', hrun, -, hframes, -⟩ :=
    remote_data_callback params rfl 16 ⟨16, by decide⟩ cb (fun _ => 0) 2 [1, 2, 3, 4]
      [9, 9, 9, 9, 9, 9, 9, 9] ⟨by decide, rfl, rfl, by decide, by decide⟩
  obtain ⟨rfl, hbytes⟩ := hframes (by decide)
  exact ⟨output', m', hrun, hbytes 0, hbytes 3, hbytes 4⟩

end Refinement

end Audioipc

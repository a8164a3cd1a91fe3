import Audioipc.Messages
import Audioipc.Shm

/-!
# The server's callbacks

`server.rs`'s `ServerStreamCallbacks`: what the server does when cubeb calls
one of the callbacks of a stream. Each makes at most one RPC, so a callback
is either a result, or a request with what is done about the response; the
memory is as the client finds it when it gets the request, and as the client
leaves it.
-/

namespace Audioipc

/-- A callback up to its RPC, and from there on. The response is `none` if
the call returns `Err`. -/
inductive Callback (α : Type) where
  | done (a : α)
  | call (req : CallbackReq) (shm : Memory) (k : Option CallbackResp → Memory → α)

def Callback.request {α : Type} : Callback α → Option CallbackReq
  | .done _ => none
  | .call req _ _ => some req

def Callback.run {α : Type} (serve : CallbackReq → Memory → Option CallbackResp × Memory) :
    Callback α → α
  | .done a => a
  | .call req shm k => k (serve req shm).1 (serve req shm).2

def Callback.answer {α : Type} (serve : CallbackReq → Memory → Option CallbackResp × Memory) :
    Callback α → Option (Option CallbackResp)
  | .done _ => none
  | .call req shm _ => some (serve req shm).1

/-- `usize::checked_mul`. -/
def checkedMul (a b : Nat) : Option Nat := if a * b < 2 ^ 64 then some (a * b) else none

theorem checkedMul_ok {a b : Nat} (h : a * b < 2 ^ 64) : checkedMul a b = some (a * b) := if_pos h

structure ServerStreamCallbacks where
  inputFrameSize : Option Nat
  outputFrameSize : Option Nat
  shm : SharedMem
  connected : Bool
deriving Repr, DecidableEq

namespace ServerStreamCallbacks

/-- What a data callback returns, the output buffer it leaves, and the
shared memory. -/
abbrev DataResult := Except ShmPanic (Int × Bytes × Memory)

/-- `data_callback` from the response on. -/
def dataResponse (cbs : ServerStreamCallbacks) (output : Bytes) (nframes : Int)
    (r : Option CallbackResp) (m : Memory) : DataResult :=
  match r with
  | some (.data frames) =>
      if frames < 0 ∨ frames > nframes then return (CUBEB_ERROR, output, m)
      else
        match cbs.outputFrameSize with
        | none => return (frames, output, m)
        | some outputFrameSize =>
            match checkedMul frames.toNat outputFrameSize with
            | none => return (CUBEB_ERROR, output, m)
            | some nbytes =>
                if nbytes > output.length ∨ nbytes > cbs.shm.size.toNat then
                  return (CUBEB_ERROR, output, m)
                else do
                  let output ← copyPrefix output nbytes (← cbs.shm.getSlice m nbytes)
                  return (frames, output, m)
  | _ => return (CUBEB_ERROR, output, m)

/-- `data_callback` from the check of the output on. -/
def dataOutput (cbs : ServerStreamCallbacks) (m : Memory) (output : Bytes) (nframes : Int) :
    Callback DataResult :=
  if cbs.outputFrameSize.isSome ∧ (output.isEmpty ∨ output.length > cbs.shm.size.toNat) then
    .done (return (CUBEB_ERROR, output, m))
  else if nframes = 0 then .done (return (0, output, m))
  else .call (.data nframes) m (cbs.dataResponse output nframes)

def dataCallback (cbs : ServerStreamCallbacks) (m : Memory) (input output : Bytes)
    (nframes : Int) : Callback DataResult :=
  if ¬ cbs.connected then .done (return (CUBEB_ERROR, output, m))
  else if cbs.inputFrameSize.isSome then
    if input.length > cbs.shm.size.toNat then .done (return (CUBEB_ERROR, output, m))
    else
      match cbs.shm.copyIn m input.length input with
      | .error p => .done (throw p)
      | .ok m => cbs.dataOutput m output nframes
  else cbs.dataOutput m output nframes

def outputBytes (cbs : ServerStreamCallbacks) (frames : Int) : Nat :=
  frames.toNat * cbs.outputFrameSize.getD 0

/-- A reply that is taken: a number of frames that were asked for and that
fit the output and the shared memory. -/
structure Accepts (cbs : ServerStreamCallbacks) (output : Bytes) (nframes frames : Int) :
    Prop where
  nonneg : 0 ≤ frames
  le : frames ≤ nframes
  output : cbs.outputBytes frames ≤ output.length
  shm : cbs.outputBytes frames ≤ cbs.shm.size.toNat

/-- Why a callback does not get as far as its RPC. -/
def Refuses (cbs : ServerStreamCallbacks) (input output : Bytes) : Prop :=
  cbs.connected = false ∨
  (cbs.inputFrameSize.isSome ∧ cbs.shm.size.toNat < input.length) ∨
  (cbs.outputFrameSize.isSome ∧ (output = [] ∨ cbs.shm.size.toNat < output.length))

section Spec

variable {cbs : ServerStreamCallbacks} {m : Memory} {input output : Bytes} {nframes frames : Int}

theorem dataResponse_accepted (h : cbs.Accepts output nframes frames) :
    cbs.dataResponse output nframes (some (.data frames)) m =
      .ok (frames, m.read (cbs.outputBytes frames) ++ output.drop (cbs.outputBytes frames), m) := by
  obtain ⟨hnonneg, hle, houtput, hshm⟩ := h
  unfold dataResponse
  dsimp only
  rw [if_neg (by omega)]
  cases hsize : cbs.outputFrameSize with
  | none => simp [outputBytes, hsize, Memory.read, pure, Except.pure]
  | some size =>
      have hbytes : frames.toNat * size = cbs.outputBytes frames := by simp [outputBytes, hsize]
      have hlt := cbs.shm.size.toNat_lt
      have hcopy := copyPrefix_ok (show (m.read (cbs.outputBytes frames)).length ≤
        output.length by rwa [Memory.length_read])
      rw [Memory.length_read] at hcopy
      dsimp only
      rw [checkedMul_ok (by omega), hbytes]
      dsimp only
      rw [if_neg (by omega), SharedMem.getSlice_ok hshm, ok_bind, hcopy, ok_bind]
      rfl

/-- Any other reply is an error, and the output is left alone. -/
theorem dataResponse_rejected {r : Option CallbackResp}
    (h : ∀ frames, r = some (.data frames) → ¬ cbs.Accepts output nframes frames) :
    cbs.dataResponse output nframes r m = .ok (CUBEB_ERROR, output, m) := by
  unfold dataResponse
  split
  · rename_i frames
    have hno := h frames rfl
    split
    · rfl
    · rename_i hrange
      have hnot : ¬ (cbs.outputBytes frames ≤ output.length ∧
          cbs.outputBytes frames ≤ cbs.shm.size.toNat) := fun ⟨houtput, hshm⟩ =>
        hno ⟨by omega, by omega, houtput, hshm⟩
      split
      · rename_i hsize
        exact absurd (by simp [outputBytes, hsize]) hnot
      · rename_i size hsize
        have hbytes : cbs.outputBytes frames = frames.toNat * size := by
          simp [outputBytes, hsize]
        rw [hbytes] at hnot
        split
        · rfl
        · rename_i nbytes hmul
          obtain rfl : frames.toNat * size = nbytes := by
            unfold checkedMul at hmul
            split at hmul <;> cases hmul
            rfl
          rw [if_pos (by omega)]
          rfl
  · rfl

/-- What a data callback does before the reply: it is refused, or has
nothing to do, or makes its one RPC. -/
theorem dataCallback_cases (cbs : ServerStreamCallbacks) (m : Memory) (input output : Bytes)
    (nframes : Int) : ∃ m',
    (cbs.Refuses input output ∧
      cbs.dataCallback m input output nframes = .done (.ok (CUBEB_ERROR, output, m'))) ∨
    (¬ cbs.Refuses input output ∧ nframes = 0 ∧
      cbs.dataCallback m input output nframes = .done (.ok (0, output, m'))) ∨
    (¬ cbs.Refuses input output ∧ nframes ≠ 0 ∧
      cbs.dataCallback m input output nframes =
        .call (.data nframes) m' (cbs.dataResponse output nframes)) := by
  have houtput : cbs.connected = true →
      (cbs.inputFrameSize.isSome → input.length ≤ cbs.shm.size.toNat) → ∀ m',
      (cbs.Refuses input output ∧
        cbs.dataOutput m' output nframes = .done (.ok (CUBEB_ERROR, output, m'))) ∨
      (¬ cbs.Refuses input output ∧ nframes = 0 ∧
        cbs.dataOutput m' output nframes = .done (.ok (0, output, m'))) ∨
      (¬ cbs.Refuses input output ∧ nframes ≠ 0 ∧
        cbs.dataOutput m' output nframes =
          .call (.data nframes) m' (cbs.dataResponse output nframes)) := by
    intro hconnected hin m'
    unfold dataOutput
    split
    · rename_i hbad
      exact Or.inl ⟨Or.inr (Or.inr (by simpa using hbad)), rfl⟩
    · rename_i hgood
      have hno : ¬ cbs.Refuses input output := by
        rintro (hc | ⟨hsome, hlong⟩ | hbad)
        · rw [hconnected] at hc; cases hc
        · exact absurd (hin hsome) (Nat.not_le.mpr hlong)
        · exact hgood (by simpa using hbad)
      split
      · exact Or.inr (Or.inl ⟨hno, ‹_›, rfl⟩)
      · exact Or.inr (Or.inr ⟨hno, ‹_›, rfl⟩)
  unfold dataCallback
  split
  · rename_i hconnected
    exact ⟨m, Or.inl ⟨Or.inl (by simpa using hconnected), rfl⟩⟩
  · rename_i hconnected
    have hconnected : cbs.connected = true := by simpa using hconnected
    split
    · rename_i hsome
      split
      · rename_i hlong
        exact ⟨m, Or.inl ⟨Or.inr (Or.inl ⟨hsome, hlong⟩), rfl⟩⟩
      · rename_i hfits
        rw [SharedMem.copyIn_ok (Nat.not_lt.mp hfits)]
        exact ⟨_, houtput hconnected (fun _ => Nat.not_lt.mp hfits) _⟩
    · rename_i hnone
      exact ⟨_, houtput hconnected (fun h => absurd h hnone) _⟩

end Spec

/-- A callback that only tells the client something. -/
def notify (cbs : ServerStreamCallbacks) (m : Memory) (req : CallbackReq) : Callback Unit :=
  if ¬ cbs.connected then .done ()
  else .call req m fun _ _ => ()

def stateCallback (cbs : ServerStreamCallbacks) (m : Memory) (state : UInt32) : Callback Unit :=
  cbs.notify m (.state state)

def deviceChangeCallback (cbs : ServerStreamCallbacks) (m : Memory) : Callback Unit :=
  cbs.notify m .deviceChange

structure Silent (cbs : ServerStreamCallbacks) : Prop where
  data : ∀ m input output nframes, (cbs.dataCallback m input output nframes).request = none
  state : ∀ m state, (cbs.stateCallback m state).request = none
  deviceChange : ∀ m, (cbs.deviceChangeCallback m).request = none

theorem silent_of_not_connected {cbs : ServerStreamCallbacks} (h : cbs.connected = false) :
    cbs.Silent where
  data := by simp [dataCallback, h, Callback.request]
  state := by simp [stateCallback, notify, h, Callback.request]
  deviceChange := by simp [deviceChangeCallback, notify, h, Callback.request]

end ServerStreamCallbacks

end Audioipc

import Audioipc.ServerPanics

/-!
# The handshake of a stream

`StreamCreate` and `StreamInit`, from the client's side of the pipe: what
holds of the slots of a server after any sequence of requests, and what the
next request can do to them.
-/

namespace Audioipc

namespace CubebServer

/-- What the next request makes of the slots. A pipe is handed out by nothing
but the `StreamInit` of a slot that has it, whose pipe has not been handed out
before, and that makes the slot a running one; a new slot is none of those
there have been. -/
structure NextRequest (s : CubebServer) (out : Outcome) (msg : ServerMessage) (served : Served) :
    Prop where
  handsOut : served.response.body = .streamInitialized →
    ∃ token slot stream, msg = .streamInit token ∧ s.streams token = some slot ∧ slot.Created ∧
      served.response.handle = slot.clientPipe ∧ slot.serial ∉ s.handedOut ∧
      served.server.handedOut = s.handedOut ++ [slot.serial] ∧
      served.server.streams token = ({ slot with params := none }.initStages stream).getLast?
  keeps : served.response.body ≠ .streamInitialized → served.server.handedOut = s.handedOut
  fresh : ∀ token size, served.response.body = .streamCreated token size →
    ∃ slot, served.server.streams token = some slot ∧ slot.Created ∧
      slot.serial ∉ s.handedOut ∧
      ∀ key' slot', s.streams key' = some slot' → slot'.serial ≠ slot.serial
  createFailed : ∀ params, msg = .streamCreate params →
    (∀ token size, served.response.body ≠ .streamCreated token size) →
    served.server.streams = s.streams
  initFailed : ∀ token, msg = .streamInit token → served.response.body ≠ .streamInitialized →
    served.server.streams = s.streams ∨
      ∃ slot, s.streams token = some slot ∧
        served.server.streams = Function.update s.streams token none

variable {out : Outcome} {context : Context} {manager : CubebDeviceCollectionManager}
  {s : CubebServer} {msg : ServerMessage}

theorem nextRequest (h : s.Inv) {served : Served}
    (hserved : s.processMsg out context manager msg = .ok served) :
    s.NextRequest out msg served := by
  obtain ⟨heffect, hpid⟩ := processMsg_effect hserved
  obtain ⟨r, s', context', manager'⟩ := served
  dsimp only at heffect hpid
  cases heffect with
  | kept hslots hbody =>
      simp only [slots, Prod.mk.injEq] at hslots
      obtain ⟨hstreams, -, hhanded⟩ := hslots
      exact {
        handsOut := fun heq => by rw [show r.body = _ from heq] at hbody; cases hbody
        keeps := fun _ => hhanded
        fresh := fun _ _ heq => by rw [show r.body = _ from heq] at hbody; cases hbody
        createFailed := fun _ _ _ => hstreams
        initFailed := fun _ _ _ => Or.inl hstreams }
  | created slot hcreated hserial hslots =>
      simp only [slots, Prod.mk.injEq] at hslots
      obtain ⟨hstreams, -, hhanded⟩ := hslots
      refine ⟨fun h => (by cases h), fun _ => hhanded, fun token size heq => ?_,
        fun params hmsg hbody => absurd rfl (hbody _ _), fun _ hmsg => (by cases hmsg)⟩
      cases heq
      refine ⟨slot, by simp [hstreams], hcreated, fun hmem => ?_, fun key' slot' hslot' heq => ?_⟩
      · have := h.handedOut _ hmem
        omega
      · have := h.serial key' slot' hslot'
        omega
  | @initialized token slot stream clientPipe hslot hstream hparams hpipe hslots =>
      obtain ⟨hcreated, hnew⟩ := h.idle hslot hstream
      simp only [slots, Prod.mk.injEq] at hslots
      obtain ⟨hstreams, -, hhanded⟩ := hslots
      refine ⟨fun _ => ⟨token, slot, stream, rfl, hslot, hcreated, hpipe.symm, hnew, hhanded, ?_⟩,
        fun hne => absurd rfl hne, fun _ _ heq => (by cases heq), fun _ hmsg => (by cases hmsg),
        fun _ _ hne => absurd rfl hne⟩
      simp [hstreams, ServerStream.initStages]
  | @removed token slot hslot hstream hslots =>
      simp only [slots, Prod.mk.injEq] at hslots
      obtain ⟨hstreams, -, hhanded⟩ := hslots
      refine ⟨fun h => (by cases h), fun _ => hhanded, fun _ _ heq => (by cases heq),
        fun _ hmsg => (by cases hmsg), fun token' hmsg _ => Or.inr ?_⟩
      cases hmsg
      exact ⟨slot, hslot, hstreams⟩
  | destroyed hslot hslots =>
      simp only [slots, Prod.mk.injEq] at hslots
      obtain ⟨-, -, hhanded⟩ := hslots
      exact ⟨fun h => (by cases h), fun _ => hhanded, fun _ _ heq => (by cases heq),
        fun _ hmsg => (by cases hmsg), fun _ hmsg => (by cases hmsg)⟩

/-- In every state that a server reaches: the slots have their two shapes, no
pipe is handed out twice, callbacks make no request before the pipe is handed
out (`silent`), not even while the slot is being changed (`silentInit`), and
the next request keeps it so. -/
structure Lifecycle (s : CubebServer) : Prop where
  shape : ∀ key slot, s.streams key = some slot →
    (slot.Created ∧ ¬ slot.Running) ∨ (slot.Running ∧ ¬ slot.Created)
  noInvalidState : ∀ out context manager msg,
    s.processMsg out context manager msg ≠ .error .invalidState
  once : s.handedOut.Nodup
  unique : ∀ key key' slot slot', s.streams key = some slot → s.streams key' = some slot' →
    slot.serial = slot'.serial → key = key'
  next : ∀ out context manager msg served,
    s.processMsg out context manager msg = .ok served → s.NextRequest out msg served
  silent : ∀ key slot, s.streams key = some slot → slot.serial ∉ s.handedOut → slot.cbs.Silent
  silentInit : ∀ key slot, s.streams key = some slot → slot.Created → ∀ stream,
    ∀ stage ∈ ({ slot with params := none }.initStages stream), stage.clientPipe.isSome →
      stage.cbs.Silent

/-- The life of the streams of a server, whatever it is asked. -/
theorem stream_lifecycle (remotePid : Nat) (shmAreaSize : UInt64) {qs : List Request}
    (hrun : Lts.runs step (new remotePid shmAreaSize) qs = some s) : s.Lifecycle := by
  have h : s.Inv := runs_inv hrun
  refine ⟨fun key slot hslot => ?_, fun out context manager msg herr => ?_, h.once, h.unique,
    fun out context manager msg served hserved => nextRequest h hserved,
    fun key slot hslot hnew => ?_, fun key slot hslot hcreated stream stage hstage hpipe => ?_⟩
  · rcases h.shape key slot hslot with hc | hr
    · exact Or.inl ⟨hc, hc.not_running⟩
    · exact Or.inr ⟨hr, fun hc => hc.not_running hr⟩
  · cases (processMsg_error h).mp herr
  · have hcreated : slot.Created := (h.shape key slot hslot).resolve_right
      fun hr => hnew ((h.handed key slot hslot).mpr hr)
    exact ServerStreamCallbacks.silent_of_not_connected hcreated.connected
  · -- the pipe is taken before the stream is connected
    have hconnected : stage.cbs.connected = false := by
      simp only [ServerStream.initStages, List.mem_cons, List.not_mem_nil, or_false] at hstage
      rcases hstage with rfl | rfl | rfl
      · exact hcreated.connected
      · cases hpipe
      · cases hpipe
    exact ServerStreamCallbacks.silent_of_not_connected hconnected

/-- A stream that is created and initialised, and one that is created. -/
theorem stream_lifecycle_run : ∃ s, Lts.runs step (new 1 0)
      [succeeding 0 (.streamCreate (monoOutput 0)), succeeding 1 (.streamInit 0),
       succeeding 1 (.streamCreate (monoOutput 0))] = some s ∧
    s.handedOut = [0] ∧ s.Lifecycle := by
  have hrun : (Lts.runs step (new 1 0)
      [succeeding 0 (.streamCreate (monoOutput 0)), succeeding 1 (.streamInit 0),
       succeeding 1 (.streamCreate (monoOutput 0))]).map handedOut = some [0] := by
    decide +kernel
  obtain ⟨s, hs, hhanded⟩ := Option.map_eq_some_iff.mp hrun
  exact ⟨s, hs, hhanded, stream_lifecycle 1 0 hs⟩

end CubebServer

end Audioipc

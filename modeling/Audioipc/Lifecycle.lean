import Audioipc.Lts
import Audioipc.Server

/-!
# The life of a stream

What a request does to the slots of a server (`SlotEffect`), and from it the
invariant of all slots: each is `Created` or `Running`, and the slots whose
pipe has been handed out are those that are, or were, running.
-/

namespace Audioipc

/-- `StreamCreate` has been served. -/
structure ServerStream.Created (slot : ServerStream) : Prop where
  stream : slot.stream = none
  clientPipe : slot.clientPipe.isSome
  params : ∃ params, slot.params = some params ∧ validateStreamCreateParams params = .ok ()
  connected : slot.cbs.connected = false

/-- `StreamInit` has been served. -/
structure ServerStream.Running (slot : ServerStream) : Prop where
  stream : slot.stream.isSome
  clientPipe : slot.clientPipe = none
  params : slot.params = none
  connected : slot.cbs.connected = true

theorem ServerStream.Created.not_running {slot : ServerStream} (h : slot.Created) :
    ¬ slot.Running := by
  intro h'
  have := h'.connected
  rw [h.connected] at this
  cases this

/-- The response is a part of the handshake. -/
def ClientMessage.opensStream : ClientMessage → Bool
  | .streamCreated .. | .streamInitialized => true
  | _ => false

namespace CubebServer

variable {out : Outcome} {context : Context} {manager : CubebDeviceCollectionManager}
  {s s' : CubebServer} {msg : ServerMessage} {r : Item ClientMessage}

def slots (s : CubebServer) : Slab ServerStream × Nat × List Nat :=
  (s.streams, s.serial, s.handedOut)

/-- What a request that is answered by `r` does to the slots. -/
inductive SlotEffect (out : Outcome) (s s' : CubebServer) :
    ServerMessage → Item ClientMessage → Prop
  | kept {msg : ServerMessage} {r : Item ClientMessage} (hslots : s'.slots = s.slots)
      (hbody : r.body.opensStream = false) :
      SlotEffect out s s' msg r
  | created {params : StreamCreateParams} {shmHandle : Handle} (slot : ServerStream)
      (hcreated : slot.Created) (hserial : slot.serial = s.serial)
      (hslots : s'.slots =
        (Function.update s.streams out.key (some slot), s.serial + 1, s.handedOut)) :
      SlotEffect out s s' (.streamCreate params)
        (.owning (.streamCreated out.key slot.cbs.shm.size) shmHandle rfl)
  | initialized {token : Nat} {slot : ServerStream} {stream : CubebStream} {clientPipe : Handle}
      (hslot : s.streams token = some slot) (hstream : slot.stream = none)
      (hparams : slot.params.isSome) (hpipe : slot.clientPipe = some clientPipe)
      (hslots : s'.slots = (Function.update s.streams token (some { slot with
        stream := some stream, clientPipe := none, params := none,
        cbs := { slot.cbs with connected := true } }), s.serial, s.handedOut ++ [slot.serial])) :
      SlotEffect out s s' (.streamInit token) (.owning .streamInitialized clientPipe rfl)
  | removed {token : Nat} {slot : ServerStream} (hslot : s.streams token = some slot)
      (hstream : slot.stream = none)
      (hslots : s'.slots = (Function.update s.streams token none, s.serial, s.handedOut)) :
      SlotEffect out s s' (.streamInit token) (error .error)
  | destroyed {token : Nat} {slot : ServerStream} (hslot : s.streams token = some slot)
      (hslots : s'.slots = (Function.update s.streams token none, s.serial, s.handedOut)) :
      SlotEffect out s s' (.streamDestroy token) (.plain .streamDestroyed rfl)

theorem processStreamCreate_effect {params : StreamCreateParams} {o : Option (Item ClientMessage)}
    (h : s.processStreamCreate out params = .ok (o, s')) :
    SlotEffect out s s' (.streamCreate params) (o.getD (error .error)) ∧
      s'.remotePid = s.remotePid := by
  unfold processStreamCreate at h
  split at h
  · cases h
    exact ⟨.kept rfl rfl, rfl⟩
  · rename_i hvalid
    cases hsize : s.shmAreaSizeFor params with
    | error p => rw [hsize] at h; cases h
    | ok size =>
        rw [hsize] at h
        dsimp only [bind, Except.bind] at h
        split at h
        · rename_i clientPipe _ _ _
          split at h <;> cases h
          exact ⟨.created ⟨none, ⟨_, _, ⟨size⟩, false⟩, some clientPipe, some params, s.serial⟩
            ⟨rfl, rfl, ⟨params, rfl, hvalid⟩, rfl⟩ rfl rfl, rfl⟩
        · cases h
          exact ⟨.kept rfl rfl, rfl⟩

theorem initStream_effect {token : Nat} {slot : ServerStream} {params : StreamCreateParams}
    {o : Option (Item ClientMessage)} (hslot : s.streams token = some slot)
    (hstream : slot.stream = none) (hparams : slot.params = some params)
    (h : s.initStream out token slot params = .ok (o, s')) :
    SlotEffect out s s' (.streamInit token) (o.getD (error .error)) ∧
      s'.remotePid = s.remotePid := by
  unfold initStream at h
  dsimp only [bind, Except.bind] at h
  split at h
  · cases h
  · split at h
    · cases h
    · split at h
      · cases h
      · split at h
        · cases h
          exact ⟨.removed hslot hstream rfl, rfl⟩
        · split at h
          · cases h
          · cases h
          · rename_i clientPipe _ hpipe _
            cases h
            exact ⟨.initialized hslot hstream (by simp [hparams]) hpipe rfl, rfl⟩

theorem processStreamInit_effect {token : Nat} {o : Option (Item ClientMessage)}
    (h : s.processStreamInit out token = .ok (o, s')) :
    SlotEffect out s s' (.streamInit token) (o.getD (error .error)) ∧
      s'.remotePid = s.remotePid := by
  unfold processStreamInit at h
  split at h
  · cases h
    exact ⟨.kept rfl rfl, rfl⟩
  · rename_i slot hslot
    split at h
    · cases h
      exact ⟨.kept rfl rfl, rfl⟩
    · cases h
      exact ⟨.kept rfl rfl, rfl⟩
    · rename_i params hstream hparams
      exact initStream_effect hslot hstream hparams h

/-- An operation on a stream leaves everything as it was, and answers with
what it makes of the result or with an error. -/
theorem tryStream_served {α : Type} {token : Nat} {o : Except CubebError α}
    {f : α → Item ClientMessage} {served : Served} {P : ClientMessage → Prop}
    (herror : ∀ code, P (.error code)) (hf : ∀ a, P (f a).body)
    (h : (do return ⟨← s.tryStream token o f, s, context, manager⟩ : Except ServerPanic Served)
      = .ok served) :
    served.server = s ∧ served.context = context ∧ served.manager = manager ∧
      P served.response.body := by
  cases hr : s.tryStream token o f with
  | error p => rw [hr] at h; cases h
  | ok r =>
      rw [hr] at h
      cases h
      refine ⟨rfl, rfl, rfl, ?_⟩
      unfold tryStream at hr
      split at hr
      · cases hr
        exact herror _
      · split at hr <;> cases hr
        cases o with
        | error e => exact herror _
        | ok a => exact hf a

/-- Every request has one of these effects. -/
theorem processMsg_effect {served : Served}
    (h : s.processMsg out context manager msg = .ok served) :
    SlotEffect out s served.server msg served.response ∧
      served.server.remotePid = s.remotePid := by
  have hkept : served.server.slots = s.slots → served.server.remotePid = s.remotePid →
      served.response.body.opensStream = false →
      SlotEffect out s served.server msg served.response ∧
        served.server.remotePid = s.remotePid :=
    fun hslots hpid hbody => ⟨.kept hslots hbody, hpid⟩
  have hsame : served.server = s → served.response.body.opensStream = false →
      SlotEffect out s served.server msg served.response ∧
        served.server.remotePid = s.remotePid :=
    fun heq => hkept (congrArg slots heq) (congrArg remotePid heq)
  cases msg with
  | streamCreate params =>
      simp only [processMsg, bind, Except.bind] at h
      split at h
      · cases h
      · rename_i hr
        cases h
        exact processStreamCreate_effect hr
  | streamInit token =>
      simp only [processMsg, bind, Except.bind] at h
      split at h
      · cases h
      · rename_i hr
        cases h
        exact processStreamInit_effect hr
  | streamDestroy token =>
      simp only [processMsg] at h
      split at h <;> rename_i hslot <;> cases h
      · exact hsame rfl rfl
      · exact ⟨.destroyed hslot rfl, rfl⟩
  | contextGetDeviceEnumeration =>
      simp only [processMsg] at h
      split at h <;> cases h
      · exact hsame rfl rfl
      · exact hkept rfl rfl rfl
  | contextSetupDeviceCollectionCallback =>
      simp only [processMsg] at h
      split at h <;> cases h
      · exact hkept rfl rfl rfl
      · exact hsame rfl rfl
  | contextRegisterDeviceCollectionChanged =>
      simp only [processMsg, processRegisterDeviceCollectionChanged] at h
      split at h
      · cases h
        exact hsame rfl rfl
      · split at h
        · cases h
        · split at h <;> cases h <;> exact hsame rfl rfl
  | clientConnect | promoteThreadToRealTime =>
      simp only [processMsg] at h
      split at h <;> cases h
      exact hsame rfl rfl
  | clientDisconnect | contextGetBackendId =>
      cases h
      exact hsame rfl rfl
  | contextGetMaxChannelCount | contextGetMinLatency | contextGetPreferredSampleRate
  | contextGetSupportedInputProcessingParams =>
      simp only [processMsg, pure, Except.pure, Except.ok.injEq] at h
      split at h <;> cases h <;> exact hsame rfl rfl
  | streamStart | streamStop | streamGetPosition | streamGetLatency | streamGetInputLatency
  | streamSetVolume | streamSetName | streamGetCurrentDevice | streamSetInputMute
  | streamSetInputProcessingParams | streamRegisterDeviceChangeCallback =>
      obtain ⟨heq, -, -, hbody⟩ := tryStream_served (P := (·.opensStream = false))
        (fun _ => rfl) (fun _ => rfl) h
      exact hsame heq hbody

/-! ## The invariant of the slots -/

structure Request where
  out : Outcome
  context : Context
  manager : CubebDeviceCollectionManager
  msg : ServerMessage

/-- A request that does not panic. The slab gives out vacant keys. -/
def step (s : CubebServer) (q : Request) : Option CubebServer :=
  if (s.streams q.out.key).isSome then none
  else
    match s.processMsg q.out q.context q.manager q.msg with
    | .ok served => some served.server
    | .error _ => none

structure Inv (s : CubebServer) : Prop where
  shape : ∀ key slot, s.streams key = some slot → slot.Created ∨ slot.Running
  serial : ∀ key slot, s.streams key = some slot → slot.serial < s.serial
  unique : ∀ key key' slot slot', s.streams key = some slot → s.streams key' = some slot' →
    slot.serial = slot'.serial → key = key'
  handed : ∀ key slot, s.streams key = some slot → (slot.serial ∈ s.handedOut ↔ slot.Running)
  once : s.handedOut.Nodup
  handedOut : ∀ n ∈ s.handedOut, n < s.serial
  pid : s.remotePid.isSome

theorem inv_new (remotePid : Nat) (shmAreaSize : UInt64) : (new remotePid shmAreaSize).Inv := by
  have hempty : ∀ key slot, (new remotePid shmAreaSize).streams key ≠ some slot := fun _ _ h => by
    simp [new] at h
  exact ⟨fun _ _ h => absurd h (hempty _ _), fun _ _ h => absurd h (hempty _ _),
    fun _ _ _ _ h => absurd h (hempty _ _), fun _ _ h => absurd h (hempty _ _),
    List.nodup_nil, fun _ h => absurd h List.not_mem_nil, rfl⟩

theorem Inv.kept (h : s.Inv) (hslots : s'.slots = s.slots) (hpid : s'.remotePid = s.remotePid) :
    s'.Inv := by
  simp only [slots, Prod.mk.injEq] at hslots
  obtain ⟨hstreams, hserial, hhanded⟩ := hslots
  exact ⟨hstreams ▸ h.shape, by rw [hstreams, hserial]; exact h.serial, hstreams ▸ h.unique,
    by rw [hstreams, hhanded]; exact h.handed, hhanded ▸ h.once,
    by rw [hserial, hhanded]; exact h.handedOut, hpid ▸ h.pid⟩

theorem Inv.removed (h : s.Inv) {token : Nat}
    (hslots : s'.slots = (Function.update s.streams token none, s.serial, s.handedOut))
    (hpid : s'.remotePid = s.remotePid) : s'.Inv := by
  simp only [slots, Prod.mk.injEq] at hslots
  obtain ⟨hstreams, hserial, hhanded⟩ := hslots
  have hold : ∀ {key slot}, s'.streams key = some slot → s.streams key = some slot :=
    fun hk => (Slab.of_remove (hstreams ▸ hk)).2
  exact ⟨fun _ _ hk => h.shape _ _ (hold hk), fun _ _ hk => hserial ▸ h.serial _ _ (hold hk),
    fun _ _ _ _ hk hk' => h.unique _ _ _ _ (hold hk) (hold hk'),
    fun _ _ hk => hhanded ▸ h.handed _ _ (hold hk), hhanded ▸ h.once,
    by rw [hserial, hhanded]; exact h.handedOut, hpid ▸ h.pid⟩

theorem Inv.created (h : s.Inv) {key : Nat} {slot : ServerStream} (hcreated : slot.Created)
    (hserial : slot.serial = s.serial)
    (hslots : s'.slots = (Function.update s.streams key (some slot), s.serial + 1, s.handedOut))
    (hpid : s'.remotePid = s.remotePid) : s'.Inv := by
  simp only [slots, Prod.mk.injEq] at hslots
  obtain ⟨hstreams, hserial', hhanded⟩ := hslots
  have hcases : ∀ {k slot'}, s'.streams k = some slot' →
      (k = key ∧ slot' = slot) ∨ (k ≠ key ∧ s.streams k = some slot') :=
    fun hk => Slab.insert_cases (hstreams ▸ hk)
  refine ⟨fun k slot' hk => ?_, fun k slot' hk => ?_, fun k k' slot₁ slot₂ hk hk' heq => ?_,
    fun k slot' hk => ?_, hhanded ▸ h.once, fun n hn => ?_, hpid ▸ h.pid⟩
  · rcases hcases hk with ⟨-, rfl⟩ | ⟨-, hk⟩
    · exact Or.inl hcreated
    · exact h.shape k slot' hk
  · rw [hserial']
    rcases hcases hk with ⟨-, rfl⟩ | ⟨-, hk⟩
    · omega
    · have := h.serial k slot' hk
      omega
  · -- no older slot has the serial number of the new one
    rcases hcases hk with ⟨rfl, rfl⟩ | ⟨-, hk⟩ <;> rcases hcases hk' with ⟨rfl, rfl⟩ | ⟨-, hk'⟩
    · rfl
    · have := h.serial k' slot₂ hk'
      omega
    · have := h.serial k slot₁ hk
      omega
    · exact h.unique k k' slot₁ slot₂ hk hk' heq
  · rw [hhanded]
    rcases hcases hk with ⟨-, rfl⟩ | ⟨-, hk⟩
    · refine ⟨fun hmem => ?_, fun hrun => absurd hrun hcreated.not_running⟩
      have := h.handedOut _ hmem
      omega
    · exact h.handed k slot' hk
  · rw [hhanded] at hn
    have := h.handedOut n hn
    omega

theorem Inv.idle (h : s.Inv) {token : Nat} {slot : ServerStream}
    (hslot : s.streams token = some slot) (hstream : slot.stream = none) :
    slot.Created ∧ slot.serial ∉ s.handedOut := by
  have hidle : ¬ slot.Running := fun hrun => by
    have := hrun.stream
    rw [hstream] at this
    cases this
  exact ⟨(h.shape token slot hslot).resolve_right hidle,
    fun hmem => hidle ((h.handed token slot hslot).mp hmem)⟩

theorem Inv.initialized (h : s.Inv) {token : Nat} {slot slot' : ServerStream}
    (hslot : s.streams token = some slot) (hstream : slot.stream = none)
    (hrunning : slot'.Running) (hserial : slot'.serial = slot.serial)
    (hslots : s'.slots = (Function.update s.streams token (some slot'), s.serial,
      s.handedOut ++ [slot.serial]))
    (hpid : s'.remotePid = s.remotePid) : s'.Inv := by
  simp only [slots, Prod.mk.injEq] at hslots
  obtain ⟨hstreams, hserial', hhanded⟩ := hslots
  obtain ⟨hcreated, hnew⟩ := h.idle hslot hstream
  have hcases : ∀ {k slot₁}, s'.streams k = some slot₁ →
      (k = token ∧ slot₁ = slot') ∨ (k ≠ token ∧ s.streams k = some slot₁) :=
    fun hk => Slab.insert_cases (hstreams ▸ hk)
  refine ⟨fun k slot₁ hk => ?_, fun k slot₁ hk => ?_, fun k k' slot₁ slot₂ hk hk' heq => ?_,
    fun k slot₁ hk => ?_, ?_, fun n hn => ?_, hpid ▸ h.pid⟩
  · rcases hcases hk with ⟨-, rfl⟩ | ⟨-, hk⟩
    · exact Or.inr hrunning
    · exact h.shape k slot₁ hk
  · rw [hserial']
    rcases hcases hk with ⟨-, rfl⟩ | ⟨-, hk⟩
    · rw [hserial]; exact h.serial token slot hslot
    · exact h.serial k slot₁ hk
  · rcases hcases hk with ⟨rfl, rfl⟩ | ⟨-, hk⟩ <;> rcases hcases hk' with ⟨rfl, rfl⟩ | ⟨-, hk'⟩
    · rfl
    · exact h.unique _ _ _ _ hslot hk' (hserial ▸ heq)
    · exact h.unique _ _ _ _ hk hslot (heq.trans hserial)
    · exact h.unique k k' slot₁ slot₂ hk hk' heq
  · rw [hhanded, List.mem_append, List.mem_singleton]
    rcases hcases hk with ⟨-, rfl⟩ | ⟨hne, hk⟩
    · exact ⟨fun _ => hrunning, fun _ => Or.inr hserial⟩
    · rw [← h.handed k slot₁ hk]
      refine ⟨fun hmem => hmem.resolve_right fun heq => ?_, Or.inl⟩
      exact hne (h.unique k token slot₁ slot hk hslot heq)
  · rw [hhanded, List.nodup_append]
    refine ⟨h.once, List.nodup_singleton _, fun n hn n' hn' => ?_⟩
    rw [List.mem_singleton.mp hn']
    exact fun heq => hnew (heq ▸ hn)
  · rw [hhanded, List.mem_append, List.mem_singleton] at hn
    rw [hserial']
    rcases hn with hn | rfl
    · exact h.handedOut n hn
    · exact h.serial token slot hslot

theorem Inv.effect (h : s.Inv) (heffect : SlotEffect out s s' msg r)
    (hpid : s'.remotePid = s.remotePid) : s'.Inv := by
  cases heffect with
  | kept hslots => exact h.kept hslots hpid
  | created slot hcreated hserial hslots => exact h.created hcreated hserial hslots hpid
  | initialized hslot hstream hparams hpipe hslots =>
      refine h.initialized hslot hstream ?_ ?_ hslots hpid
      · exact ⟨rfl, rfl, rfl, rfl⟩
      · rfl
  | removed _ _ hslots | destroyed _ hslots => exact h.removed hslots hpid

theorem processMsg_inv (h : s.Inv) {served : Served}
    (hserved : s.processMsg out context manager msg = .ok served) : served.server.Inv := by
  obtain ⟨heffect, hpid⟩ := processMsg_effect hserved
  exact h.effect heffect hpid

theorem step_inv {q : Request} (h : s.Inv) (hstep : s.step q = some s') : s'.Inv := by
  unfold step at hstep
  split at hstep
  · cases hstep
  · split at hstep <;> cases hstep
    rename_i hserved
    exact processMsg_inv h hserved

theorem runs_inv {remotePid : Nat} {shmAreaSize : UInt64} {qs : List Request}
    (hrun : Lts.runs step (new remotePid shmAreaSize) qs = some s) : s.Inv :=
  Lts.runs_invariant (fun _ _ _ => step_inv) (inv_new remotePid shmAreaSize) hrun

end CubebServer

end Audioipc

import Audioipc.DataCallback
import Audioipc.ServerPanics

/-!
# Opening a stream from the client

`stream.rs`'s `ClientStream::init` over a healthy connection: its two
requests with what the client does between and after them. The server makes
a slot in the first and cleans up only after failures of its own, so a
failure of the client leaves the slot behind (`Leaks`); `init_leaves_nothing`
says that nothing else does.
-/

namespace Audioipc

/-- `Error::wrap` of a C error. -/
def CubebError.ofCode (code : Int) : CubebError :=
  match code with
  | -2 => .invalidFormat
  | -3 => .invalidParameter
  | -4 => .notSupported
  | -5 => .deviceUnavailable
  | _ => .error

/-- `send_recv!`, from the response on. -/
def sendRecv {α : Type} (r : Item ClientMessage) (expected : Item ClientMessage → Option α) :
    Except CubebError α :=
  match expected r, r.body with
  | some a, _ => .ok a
  | none, .error code => .error (.ofCode code)
  | none, _ => .error .error

theorem sendRecv_ok {α : Type} {r : Item ClientMessage} {expected : Item ClientMessage → Option α}
    {a : α} (h : sendRecv r expected = .ok a) : expected r = some a := by
  unfold sendRecv at h
  split at h
  · rename_i heq
    rw [heq, Except.ok.inj h]
  · cases h
  · cases h

/-- A server and its thread's `CONTEXT_KEY`. -/
abbrev World := CubebServer × Option CubebContextState

/-- A call over a healthy connection, unless the server panics. -/
def rpcCall (out : Outcome) (w : World) (msg : ServerMessage) :
    Option (Item ClientMessage × World) :=
  match CubebServer.process out w msg with
  | (.ok r, w') => some (r, w')
  | (.error _, _) => none

/-- What happens in `ClientStream::init`, on both sides: the two requests,
whether `SharedMem::from` and `bind_server` return `Ok`, and how much more
`try_reserve_exact` reserves than it has to, if it does. -/
structure InitOutcome where
  create : Outcome
  init : Outcome
  sharedMem : Bool
  duplexInput : Option Nat
  bindServer : Bool

structure ClientStream where
  token : Nat
deriving Repr, DecidableEq

namespace ClientStream

def streamCreated (r : Item ClientMessage) : Option (Nat × UInt64) :=
  match r.body with
  | .streamCreated token shmAreaSize => some (token, shmAreaSize)
  | _ => none

def streamInitialized (r : Item ClientMessage) : Option Unit :=
  match r.body with
  | .streamInitialized => some ()
  | _ => none

def isDuplex (params : StreamCreateParams) : Bool :=
  params.inputStreamParams.isSome && params.outputStreamParams.isSome

/-- `init` from `StreamInit` on. -/
def finishInit (out : InitOutcome) (w : World) (params : StreamCreateParams) (token : Nat)
    (shmAreaSize : UInt64) (extra : Nat) :
    Option (Except CubebError (ClientStream × CallbackServer) × World) :=
  match rpcCall out.init w (.streamInit token) with
  | none => none
  | some (r, w) =>
      match sendRecv r streamInitialized with
      | .error e => some (.error e, w)
      | .ok () =>
          let server := callbackServer params shmAreaSize
            ⟨shmAreaSize.toNat + extra, Nat.le_add_right ..⟩
          if out.bindServer then some (.ok (⟨token⟩, server), w)
          else some (.error .error, w)

/-- The stream, with the server that its callback thread has got; `none` if
the server of the client panics. -/
def init (out : InitOutcome) (w : World) (params : StreamCreateParams) :
    Option (Except CubebError (ClientStream × CallbackServer) × World) :=
  match rpcCall out.create w (.streamCreate params) with
  | none => none
  | some (r, w) =>
      match sendRecv r streamCreated with
      | .error e => some (.error e, w)
      | .ok (token, shmAreaSize) =>
          if ¬ out.sharedMem then some (.error .error, w)
          else if isDuplex params then
            match out.duplexInput with
            | none => some (.error .error, w)
            | some extra => finishInit out w params token shmAreaSize extra
          else finishInit out w params token shmAreaSize 0

/-! ## What is left behind -/

/-- The server serves `StreamCreate`. -/
structure Creates (out : Outcome) (w : World) (params : StreamCreateParams) : Prop where
  context : ∃ context, (localContext out w.2).context = .ok context
  params : validateStreamCreateParams params = .ok ()
  shm : out.shm.isSome
  pipePair : out.pipePair.isSome
  bindClient : out.bindClient = true

/-- The client fails where it does not tell the server. -/
structure Leaks (out : InitOutcome) (w : World) (params : StreamCreateParams) : Prop where
  creates : Creates out.create w params
  fails : out.sharedMem = false ∨ (isDuplex params = true ∧ out.duplexInput = none) ∨
    (out.init.streamInit = .ok () ∧ out.bindServer = false)

variable {out : Outcome} {w w' : World} {params : StreamCreateParams}

structure CreatedSlot (params : StreamCreateParams) (size : UInt64) (slot : ServerStream) :
    Prop where
  created : slot.Created
  stored : slot.params = some params
  cbs : slot.cbs = { connectedCallbacks params size with connected := false }

theorem processStreamCreate_served {s : CubebServer} (h : s.Inv)
    (hvalid : validateStreamCreateParams params = .ok ()) (hshm : out.shm.isSome)
    (hpipe : out.pipePair.isSome) (hbind : out.bindClient = true) :
    ∃ size handle slot s', s.processStreamCreate out params =
        .ok (some (.owning (.streamCreated out.key size) handle rfl), s') ∧
      s'.streams = Function.update s.streams out.key (some slot) ∧
      CreatedSlot params size slot := by
  obtain ⟨size, hsize⟩ := s.shmAreaSizeFor_ok (validateStreamCreateParams_ok hvalid)
  obtain ⟨handle, hshm⟩ := Option.isSome_iff_exists.mp hshm
  obtain ⟨clientPipe, hpipe⟩ := Option.isSome_iff_exists.mp hpipe
  obtain ⟨pid, hpid⟩ := Option.isSome_iff_exists.mp h.pid
  unfold CubebServer.processStreamCreate
  rw [hvalid]
  dsimp only
  rw [hsize, ok_bind, hshm, hpipe, hbind, hpid]
  exact ⟨size, handle, _, _, rfl, rfl, ⟨rfl, rfl, ⟨params, rfl, hvalid⟩, rfl⟩, rfl, rfl⟩

theorem processStreamCreate_refused {s : CubebServer}
    (hfail : ¬ (validateStreamCreateParams params = .ok () ∧ out.shm.isSome ∧
      out.pipePair.isSome ∧ out.bindClient = true)) :
    s.processStreamCreate out params = .ok (none, s) := by
  unfold CubebServer.processStreamCreate
  split
  · rfl
  · rename_i hvalid
    obtain ⟨size, hsize⟩ := s.shmAreaSizeFor_ok (validateStreamCreateParams_ok hvalid)
    rw [hsize, ok_bind]
    split
    · rename_i hshm hpipe hbind
      exact absurd ⟨hvalid, by simp [hshm], by simp [hpipe], hbind⟩ hfail
    · rfl

/-- The first call makes a slot under the key that the slab gives out. -/
theorem create_served (h : w.1.Inv) (hc : Creates out w params) :
    ∃ size handle slot w', rpcCall out w (.streamCreate params) =
        some (.owning (.streamCreated out.key size) handle rfl, w') ∧
      w'.1.streams = Function.update w.1.streams out.key (some slot) ∧
      CreatedSlot params size slot ∧ ∃ manager context, w'.2 = some ⟨manager, .ok context⟩ := by
  obtain ⟨context, hcontext⟩ := hc.context
  obtain ⟨size, handle, slot, s', hserved, hstreams, hslot⟩ :=
    processStreamCreate_served h hc.params hc.shm hc.pipePair hc.bindClient
  unfold rpcCall CubebServer.process
  dsimp only
  rw [hcontext]
  simp only [CubebServer.processMsg]
  rw [hserved, ok_bind]
  exact ⟨size, handle, slot, _, rfl, hstreams, hslot, _, _, rfl⟩

theorem create_refused (hc : ¬ Creates out w params) :
    ∃ w', rpcCall out w (.streamCreate params) = some (error .error, w') ∧ w'.1 = w.1 := by
  unfold rpcCall CubebServer.process
  dsimp only
  cases hcontext : (localContext out w.2).context with
  | error e => exact ⟨_, rfl, rfl⟩
  | ok context =>
      have hfail : ¬ (validateStreamCreateParams params = .ok () ∧ out.shm.isSome ∧
          out.pipePair.isSome ∧ out.bindClient = true) :=
        fun ⟨hparams, hshm, hpipe, hbind⟩ =>
          hc ⟨⟨context, hcontext⟩, hparams, hshm, hpipe, hbind⟩
      simp only [CubebServer.processMsg]
      rw [processStreamCreate_refused hfail, ok_bind]
      exact ⟨_, rfl, rfl⟩

theorem initStream_served {s s' : CubebServer} {token : Nat} {slot : ServerStream}
    {o : Option (Item ClientMessage)} (h : s.initStream out token slot params = .ok (o, s')) :
    (out.streamInit = .ok () ∧
      (∃ clientPipe, o = some (.owning .streamInitialized clientPipe rfl)) ∧
      ∃ slot', s'.streams = Function.update s.streams token (some slot') ∧
        slot'.cbs = { slot.cbs with connected := true }) ∨
    ((∃ e, out.streamInit = .error e) ∧ o = none ∧
      s'.streams = Function.update s.streams token none) := by
  unfold CubebServer.initStream at h
  dsimp only [bind, Except.bind] at h
  split at h
  · cases h
  · split at h
    · cases h
    · split at h
      · cases h
      · split at h
        · rename_i e hinit
          cases h
          exact Or.inr ⟨⟨e, hinit⟩, rfl, rfl⟩
        · rename_i hinit
          split at h
          · cases h
          · cases h
          · cases h
            exact Or.inl ⟨hinit, ⟨_, rfl⟩, _, rfl, rfl⟩

/-- The second call starts the stream, or removes the slot. -/
theorem init_served {token : Nat} {slot : ServerStream} {r : Item ClientMessage}
    {manager : CubebDeviceCollectionManager} {context : Context}
    (hk : w.2 = some ⟨manager, .ok context⟩) (hslot : w.1.streams token = some slot)
    (hstream : slot.stream = none) (hparams : slot.params = some params)
    (h : rpcCall out w (.streamInit token) = some (r, w')) :
    (out.streamInit = .ok () ∧ (∃ clientPipe, r = .owning .streamInitialized clientPipe rfl) ∧
      ∃ slot', w'.1.streams = Function.update w.1.streams token (some slot') ∧
        slot'.cbs = { slot.cbs with connected := true }) ∨
    ((∃ e, out.streamInit = .error e) ∧ r = error .error ∧
      w'.1.streams = Function.update w.1.streams token none) := by
  unfold rpcCall CubebServer.process at h
  rw [hk] at h
  simp only [localContext, Option.getD_some, CubebServer.processMsg,
    CubebServer.processStreamInit, hslot, hstream, hparams] at h
  cases hr : w.1.initStream out token slot params with
  | error p => rw [hr] at h; cases h
  | ok served =>
      obtain ⟨o, s'⟩ := served
      rw [hr, ok_bind] at h
      cases h
      rcases initStream_served hr with ⟨hinit, ⟨clientPipe, rfl⟩, hs⟩ | ⟨hinit, rfl, hs⟩
      · exact Or.inl ⟨hinit, ⟨clientPipe, rfl⟩, hs⟩
      · exact Or.inr ⟨hinit, rfl, hs⟩

/-- How `init` ends after `StreamCreate`. -/
theorem finishInit_cases {out : InitOutcome} {token extra : Nat} {size : UInt64}
    {slot : ServerStream} {r : Except CubebError (ClientStream × CallbackServer)}
    {manager : CubebDeviceCollectionManager} {context : Context}
    (hk : w.2 = some ⟨manager, .ok context⟩) (hslot : w.1.streams token = some slot)
    (hcreated : CreatedSlot params size slot)
    (h : finishInit out w params token size extra = some (r, w')) :
    (out.init.streamInit = .ok () ∧ out.bindServer = true ∧
      (∃ capacity, r = .ok (⟨token⟩, callbackServer params size capacity)) ∧
      ∃ slot', w'.1.streams = Function.update w.1.streams token (some slot') ∧
        slot'.cbs = connectedCallbacks params size) ∨
    (out.init.streamInit = .ok () ∧ out.bindServer = false ∧ (∃ e, r = .error e) ∧
      ∃ slot', w'.1.streams = Function.update w.1.streams token (some slot')) ∨
    ((∃ e, out.init.streamInit = .error e) ∧ (∃ e, r = .error e) ∧
      w'.1.streams = Function.update w.1.streams token none) := by
  unfold finishInit at h
  split at h
  · cases h
  · rename_i resp w₁ hcall
    rcases init_served hk hslot hcreated.created.stream hcreated.stored hcall with
      ⟨hinit, ⟨clientPipe, rfl⟩, slot', hs, hcbs⟩ | ⟨hinit, rfl, hs⟩
    · rw [show sendRecv (.owning .streamInitialized clientPipe rfl) streamInitialized
        = .ok () from rfl] at h
      dsimp only at h
      split at h <;> rename_i hbind <;> cases h
      · refine Or.inl ⟨hinit, hbind, ⟨_, rfl⟩, slot', hs, ?_⟩
        rw [hcbs, hcreated.cbs]
        rfl
      · exact Or.inr (Or.inl ⟨hinit, by simpa using hbind, ⟨_, rfl⟩, slot', hs⟩)
    · rw [show sendRecv (error .error) streamInitialized = .error .error from rfl] at h
      cases h
      exact Or.inr (Or.inr ⟨hinit, ⟨_, rfl⟩, hs⟩)

/-- What `init` does to the slots of the server: it makes none (`refused`), it
makes one that the client gives up without a word to the server (`abandoned`)
or that it removes again (`rejected`), or the stream is opened. -/
inductive InitEffect (out : InitOutcome) (w w' : World) (params : StreamCreateParams) :
    Except CubebError (ClientStream × CallbackServer) → Prop
  | refused (e : CubebError) (hcreates : ¬ Creates out.create w params)
      (hstreams : w'.1.streams = w.1.streams) : InitEffect out w w' params (.error e)
  | abandoned (e : CubebError) (slot : ServerStream) (hleaks : Leaks out w params)
      (hstreams : w'.1.streams = Function.update w.1.streams out.create.key (some slot)) :
      InitEffect out w w' params (.error e)
  | rejected (e : CubebError) (hleaks : ¬ Leaks out w params)
      (hstreams : w'.1.streams = Function.update w.1.streams out.create.key none) :
      InitEffect out w w' params (.error e)
  | opened (size : UInt64) (capacity : { capacity : Nat // size.toNat ≤ capacity })
      (slot : ServerStream) (hleaks : ¬ Leaks out w params)
      (hvalid : validateStreamCreateParams params = .ok ())
      (hstreams : w'.1.streams = Function.update w.1.streams out.create.key (some slot))
      (hcbs : slot.cbs = connectedCallbacks params size) :
      InitEffect out w w' params (.ok (⟨out.create.key⟩, callbackServer params size capacity))

theorem init_effect {out : InitOutcome} {r : Except CubebError (ClientStream × CallbackServer)}
    (h : w.1.Inv) (hinit : init out w params = some (r, w')) : InitEffect out w w' params r := by
  unfold init at hinit
  by_cases hc : Creates out.create w params
  · obtain ⟨size, handle, slot, w₁, hcall, hstreams, hslot, manager, context, hk⟩ :=
      create_served h hc
    have hnew : w₁.1.streams out.create.key = some slot := by rw [hstreams]; simp
    rw [hcall] at hinit
    simp only [sendRecv, streamCreated, Item.owning] at hinit
    split at hinit
    · -- `SharedMem::from` fails
      rename_i hshm
      cases hinit
      exact .abandoned _ slot ⟨hc, Or.inl (by simpa using hshm)⟩ hstreams
    · rename_i hshm
      have hfinish : ∀ extra, finishInit out w₁ params out.create.key size extra = some (r, w') →
          (isDuplex params = true → out.duplexInput ≠ none) → InitEffect out w w' params r := by
        intro extra hfinish hduplex
        have hleaks : Leaks out w params ↔
            (out.init.streamInit = .ok () ∧ out.bindServer = false) := by
          refine ⟨fun h => ?_, fun h => ⟨hc, Or.inr (Or.inr h)⟩⟩
          rcases h.fails with h | ⟨h₁, h₂⟩ | h
          · exact absurd h (by simpa using hshm)
          · exact absurd h₂ (hduplex h₁)
          · exact h
        rcases finishInit_cases hk hnew hslot hfinish with
          ⟨-, hbind, ⟨capacity, rfl⟩, slot', hs, hcbs⟩ | ⟨hok, hbind, ⟨e, rfl⟩, slot', hs⟩ |
          ⟨⟨e', herr⟩, ⟨e, rfl⟩, hs⟩ <;> rw [hstreams, Function.update_idem] at hs
        · refine .opened size capacity slot' (fun h => ?_) hc.params hs hcbs
          have := (hleaks.mp h).2
          rw [hbind] at this
          cases this
        · exact .abandoned e slot' (hleaks.mpr ⟨hok, hbind⟩) hs
        · refine .rejected e (fun h => ?_) hs
          have := (hleaks.mp h).1
          rw [herr] at this
          cases this
      split at hinit
      · rename_i hduplex
        split at hinit
        · rename_i halloc
          cases hinit
          exact .abandoned _ slot ⟨hc, Or.inr (Or.inl ⟨hduplex, halloc⟩)⟩ hstreams
        · rename_i halloc
          exact hfinish _ hinit fun _ => by rw [halloc]; exact Option.some_ne_none _
      · rename_i hduplex
        exact hfinish 0 hinit fun h => absurd h hduplex
  · obtain ⟨w₁, hcall, hs⟩ := create_refused hc
    rw [hcall] at hinit
    cases hinit
    exact .refused _ hc (congrArg CubebServer.streams hs)

/-- The two halves of a stream that has been opened agree. -/
theorem init_agrees {out : InitOutcome} {stream : ClientStream} {server : CallbackServer}
    (h : w.1.Inv) (hinit : init out w params = some (.ok (stream, server), w')) :
    validateStreamCreateParams params = .ok () ∧
    ∃ size capacity slot, server = callbackServer params size capacity ∧
      w'.1.streams stream.token = some slot ∧ slot.cbs = connectedCallbacks params size := by
  cases init_effect h hinit with
  | opened size capacity slot _ hvalid hstreams hcbs =>
      exact ⟨hvalid, size, capacity, slot, rfl, by rw [hstreams]; simp, hcbs⟩

/-- The keys in use are those that were in use before. -/
def SameSlots (s s' : CubebServer) : Prop :=
  ∀ key, (s'.streams key).isSome = (s.streams key).isSome

def duplexStream : StreamCreateParams where
  streamName := none
  inputDevice := 0
  inputStreamParams := some ⟨CUBEB_SAMPLE_S16LE, 48000, 1, 0, 0, 0⟩
  outputDevice := 0
  outputStreamParams := some ⟨CUBEB_SAMPLE_S16LE, 48000, 2, 0, 0, 0⟩
  latencyFrames := 0

def initOutcome (sharedMem : Bool) : InitOutcome :=
  ⟨.success 0, .success 1, sharedMem, some 0, true⟩

end ClientStream

end Audioipc

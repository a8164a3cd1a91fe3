import Audioipc.History
import Audioipc.Notifications

/-!
# Unregistration as a barrier

`DeviceCollectionServer::process` on the RPC thread of a client against calls of
`register_device_collection_changed` on any number of other threads. The
callbacks lie behind a mutex; every access to a field of theirs is a step here,
and so are the lock and its release.

Each call is a registration of its own. `writers` has the calls that wrote the
fields last, `history` the calls that wrote the callback of a direction, the
newest first.

`process` holds the lock while a callback runs, so what runs is what the head of
the history has registered (`Inv.executing`), and no call can write meanwhile.
-/

namespace Audioipc

/-- A call of `register_device_collection_changed`. -/
abbrev RegistrationId := Nat

/-- Where a call is: setting up the RPC if that was not done before (`refused`
if that failed), about to lock the mutex, with the lock and these directions to
go, with the callback of `d` written and its `user_ptr` not (`half`), or in the
last RPC without the lock. -/
inductive RegisterPhase where
  | setup
  | refused (e : CubebError)
  | locking
  | locked (todo : List Direction)
  | half (d : Direction) (todo : List Direction)
  | calling
  | returned (r : Except CubebError Unit)

structure RegisteringCall where
  devtype : DeviceType
  callback : Option Nat
  userPtr : Nat
  phase : RegisterPhase

def RegisterPhase.holds : RegisterPhase → Bool
  | .locked _ | .half .. => true
  | _ => false

/-- The directions in a set, in the order of the code. -/
def DeviceType.directions (devtype : DeviceType) : List Direction :=
  (if devtype.contains .INPUT then [.input] else []) ++
    if devtype.contains .OUTPUT then [.output] else []

theorem DeviceType.nodup_directions (devtype : DeviceType) : devtype.directions.Nodup := by
  unfold directions
  split <;> split <;> simp

/-- The directions whose callbacks the call has not written. -/
def RegisteringCall.unwritten (c : RegisteringCall) : List Direction :=
  match c.phase with
  | .setup | .refused _ | .locking => c.devtype.directions
  | .locked todo | .half _ todo => todo
  | .calling | .returned _ => []

/-- A callback in execution. `cbBy` and `userPtrBy` are the calls that
registered it and its argument. -/
structure Invocation where
  callback : Nat
  userPtr : Nat
  cbBy : Option RegistrationId
  userPtrBy : Option RegistrationId
deriving Repr, DecidableEq

/-- Where `process` is. With the lock it looks at each direction, and is about
to call the callback that it has `found`. -/
inductive ProcessPhase where
  | idle
  | locking (devtype : DeviceType)
  | locked (todo : List Direction)
  | found (d : Direction) (callback : Nat) (cbBy : Option RegistrationId) (todo : List Direction)
  | executing (d : Direction) (inv : Invocation) (todo : List Direction)
deriving Repr, DecidableEq

def ProcessPhase.holds : ProcessPhase → Bool
  | .idle | .locking _ => false
  | .locked _ | .found .. | .executing .. => true

inductive LockHolder where
  | server
  | call (id : RegistrationId)
deriving Repr, DecidableEq

namespace DeviceCollectionCallbacks

def cb (cbs : DeviceCollectionCallbacks) : Direction → Option Nat
  | .input => cbs.inputCb
  | .output => cbs.outputCb

def userPtr (cbs : DeviceCollectionCallbacks) : Direction → Nat
  | .input => cbs.inputUserPtr
  | .output => cbs.outputUserPtr

def setCb (cbs : DeviceCollectionCallbacks) (cb : Option Nat) :
    Direction → DeviceCollectionCallbacks
  | .input => { cbs with inputCb := cb }
  | .output => { cbs with outputCb := cb }

def setUserPtr (cbs : DeviceCollectionCallbacks) (userPtr : Nat) :
    Direction → DeviceCollectionCallbacks
  | .input => { cbs with inputUserPtr := userPtr }
  | .output => { cbs with outputUserPtr := userPtr }

variable (cbs : DeviceCollectionCallbacks) (callback : Option Nat) (ptr : Nat) (d d' : Direction)

theorem cb_setCb : (cbs.setCb callback d).cb d' = if d' = d then callback else cbs.cb d' := by
  cases d <;> cases d' <;> rfl

theorem cb_setUserPtr : (cbs.setUserPtr ptr d).cb d' = cbs.cb d' := by
  cases d <;> cases d' <;> rfl

theorem userPtr_setCb : (cbs.setCb callback d).userPtr d' = cbs.userPtr d' := by
  cases d <;> cases d' <;> rfl

theorem userPtr_setUserPtr :
    (cbs.setUserPtr ptr d).userPtr d' = if d' = d then ptr else cbs.userPtr d' := by
  cases d <;> cases d' <;> rfl

end DeviceCollectionCallbacks

structure DeviceBarrier where
  callbacks : DeviceCollectionCallbacks
  cbBy : Direction → Option RegistrationId
  userPtrBy : Direction → Option RegistrationId
  lock : Option LockHolder
  server : ProcessPhase
  calls : RegistrationId → Option RegisteringCall
  next : RegistrationId
  history : Direction → List RegistrationId

/-- `setup` is `ContextSetupDeviceCollectionCallback` and `bind_server` with
their result, and `respond` the answer to
`ContextRegisterDeviceCollectionChanged`. The last six are the steps of
`process`, which gets a `DeviceChange`, looks at the callback of the next
direction (`check`) and calls it. -/
inductive BarrierAction where
  | call (devtype : DeviceType) (callback : Option Nat) (userPtr : Nat)
  | setup (id : RegistrationId) (r : Except CubebError Unit)
  | acquire (id : RegistrationId)
  | writeCb (id : RegistrationId)
  | writeUserPtr (id : RegistrationId)
  | release (id : RegistrationId)
  | respond (id : RegistrationId) (r : Except CubebError Unit)
  | deviceChange (deviceType : UInt32)
  | lock
  | check
  | invoke
  | finish
  | unlock

namespace DeviceBarrier

def new : DeviceBarrier where
  callbacks := .default
  cbBy := fun _ => none
  userPtrBy := fun _ => none
  lock := none
  server := .idle
  calls := fun _ => none
  next := 0
  history := fun _ => []

def setPhase (l : DeviceBarrier) (id : RegistrationId) (c : RegisteringCall)
    (phase : RegisterPhase) : DeviceBarrier :=
  { l with calls := Function.update l.calls id (some { c with phase }) }

def writeCb (l : DeviceBarrier) (id : RegistrationId) (c : RegisteringCall) (d : Direction)
    (todo : List Direction) : DeviceBarrier :=
  { l.setPhase id c (.half d todo) with
    callbacks := l.callbacks.setCb c.callback d
    cbBy := Function.update l.cbBy d (some id)
    history := Function.update l.history d (id :: l.history d) }

def writeUserPtr (l : DeviceBarrier) (id : RegistrationId) (c : RegisteringCall) (d : Direction)
    (todo : List Direction) : DeviceBarrier :=
  { l.setPhase id c (.locked todo) with
    callbacks := l.callbacks.setUserPtr c.userPtr d
    userPtrBy := Function.update l.userPtrBy d (some id) }

/-- `if let Some(cb) = cbs.input_cb`, or `output_cb`. -/
def check (l : DeviceBarrier) (d : Direction) (todo : List Direction) : DeviceBarrier :=
  match l.callbacks.cb d with
  | some callback => { l with server := .found d callback (l.cbBy d) todo }
  | none => { l with server := .locked todo }

def invoke (l : DeviceBarrier) (d : Direction) (callback : Nat) (cbBy : Option RegistrationId)
    (todo : List Direction) : DeviceBarrier :=
  { l with server := .executing d ⟨callback, l.callbacks.userPtr d, cbBy, l.userPtrBy d⟩ todo }

def phaseOf (l : DeviceBarrier) (id : RegistrationId) : Option (RegisteringCall × RegisterPhase) :=
  (l.calls id).map fun c => (c, c.phase)

def step (l : DeviceBarrier) : BarrierAction → Option DeviceBarrier
  | .call devtype callback userPtr => some { l with
      calls := Function.update l.calls l.next (some ⟨devtype, callback, userPtr, .setup⟩)
      next := l.next + 1 }
  | .setup id r =>
      match l.phaseOf id, r with
      | some (c, .setup), .ok () => some (l.setPhase id c .locking)
      | some (c, .setup), .error e => some (l.setPhase id c (.refused e))
      | _, _ => none
  | .acquire id =>
      match l.phaseOf id, l.lock with
      | some (c, .locking), none =>
          some { l.setPhase id c (.locked c.devtype.directions) with lock := some (.call id) }
      | _, _ => none
  | .writeCb id =>
      match l.phaseOf id with
      | some (c, .locked (d :: todo)) => some (l.writeCb id c d todo)
      | _ => none
  | .writeUserPtr id =>
      match l.phaseOf id with
      | some (c, .half d todo) => some (l.writeUserPtr id c d todo)
      | _ => none
  | .release id =>
      match l.phaseOf id with
      | some (c, .locked []) => some { l.setPhase id c .calling with lock := none }
      | _ => none
  | .respond id r =>
      match l.phaseOf id with
      | some (c, .calling) => some (l.setPhase id c (.returned r))
      | _ => none
  | .deviceChange deviceType =>
      match l.server with
      | .idle => some { l with server := .locking (.fromBitsTruncate deviceType) }
      | _ => none
  | .lock =>
      match l.server, l.lock with
      | .locking devtype, none =>
          some { l with server := .locked devtype.directions, lock := some .server }
      | _, _ => none
  | .check =>
      match l.server with
      | .locked (d :: todo) => some (l.check d todo)
      | _ => none
  | .invoke =>
      match l.server with
      | .found d callback cbBy todo => some (l.invoke d callback cbBy todo)
      | _ => none
  | .finish =>
      match l.server with
      | .executing _ _ todo => some { l with server := .locked todo }
      | _ => none
  | .unlock =>
      match l.server with
      | .locked [] => some { l with server := .idle, lock := none }
      | _ => none

variable {l l' : DeviceBarrier} {id : RegistrationId} {c : RegisteringCall}

theorem phaseOf_eq_some {phase : RegisterPhase} (h : l.phaseOf id = some (c, phase)) :
    l.calls id = some c ∧ c.phase = phase := by
  obtain ⟨c', hc, heq⟩ := Option.map_eq_some_iff.mp h
  cases heq
  exact ⟨hc, rfl⟩

inductive Moves (l : DeviceBarrier) : BarrierAction → DeviceBarrier → Prop
  | call {devtype : DeviceType} {callback : Option Nat} {userPtr : Nat} :
      Moves l (.call devtype callback userPtr) { l with
        calls := Function.update l.calls l.next (some ⟨devtype, callback, userPtr, .setup⟩)
        next := l.next + 1 }
  | setup {id : RegistrationId} {c : RegisteringCall} {r : Except CubebError Unit}
      {phase : RegisterPhase} (hc : l.calls id = some c) (hph : c.phase = .setup)
      (hphase : phase = .locking ∨ ∃ e, phase = .refused e) :
      Moves l (.setup id r) (l.setPhase id c phase)
  | acquire {id : RegistrationId} {c : RegisteringCall} (hc : l.calls id = some c)
      (hph : c.phase = .locking) (hlock : l.lock = none) : Moves l (.acquire id)
        { l.setPhase id c (.locked c.devtype.directions) with lock := some (.call id) }
  | writeCb {id : RegistrationId} {c : RegisteringCall} {d : Direction} {todo : List Direction}
      (hc : l.calls id = some c) (hph : c.phase = .locked (d :: todo)) :
      Moves l (.writeCb id) (l.writeCb id c d todo)
  | writeUserPtr {id : RegistrationId} {c : RegisteringCall} {d : Direction}
      {todo : List Direction} (hc : l.calls id = some c) (hph : c.phase = .half d todo) :
      Moves l (.writeUserPtr id) (l.writeUserPtr id c d todo)
  | release {id : RegistrationId} {c : RegisteringCall} (hc : l.calls id = some c)
      (hph : c.phase = .locked []) :
      Moves l (.release id) { l.setPhase id c .calling with lock := none }
  | respond {id : RegistrationId} {c : RegisteringCall} {r : Except CubebError Unit}
      (hc : l.calls id = some c) (hph : c.phase = .calling) :
      Moves l (.respond id r) (l.setPhase id c (.returned r))
  | deviceChange {deviceType : UInt32} (hserver : l.server = .idle) :
      Moves l (.deviceChange deviceType)
        { l with server := .locking (.fromBitsTruncate deviceType) }
  | lock {devtype : DeviceType} (hserver : l.server = .locking devtype) (hlock : l.lock = none) :
      Moves l .lock { l with server := .locked devtype.directions, lock := some .server }
  | check {d : Direction} {todo : List Direction} (hserver : l.server = .locked (d :: todo)) :
      Moves l .check (l.check d todo)
  | invoke {d : Direction} {callback : Nat} {cbBy : Option RegistrationId} {todo : List Direction}
      (hserver : l.server = .found d callback cbBy todo) :
      Moves l .invoke (l.invoke d callback cbBy todo)
  | finish {d : Direction} {inv : Invocation} {todo : List Direction}
      (hserver : l.server = .executing d inv todo) :
      Moves l .finish { l with server := .locked todo }
  | unlock (hserver : l.server = .locked []) :
      Moves l .unlock { l with server := .idle, lock := none }

theorem step_cases {a : BarrierAction} (hs : l.step a = some l') : l.Moves a l' := by
  cases a with
  | call devtype callback userPtr =>
      cases hs
      exact .call
  | setup id r =>
      simp only [step] at hs
      split at hs <;> cases hs <;> rename_i hphase
      · obtain ⟨hc, hph⟩ := phaseOf_eq_some hphase
        exact .setup hc hph (Or.inl rfl)
      · obtain ⟨hc, hph⟩ := phaseOf_eq_some hphase
        exact .setup hc hph (Or.inr ⟨_, rfl⟩)
  | acquire id =>
      simp only [step] at hs
      split at hs <;> cases hs
      rename_i hphase hlock
      obtain ⟨hc, hph⟩ := phaseOf_eq_some hphase
      exact .acquire hc hph hlock
  | writeCb id =>
      simp only [step] at hs
      split at hs <;> cases hs
      rename_i hphase
      obtain ⟨hc, hph⟩ := phaseOf_eq_some hphase
      exact .writeCb hc hph
  | writeUserPtr id =>
      simp only [step] at hs
      split at hs <;> cases hs
      rename_i hphase
      obtain ⟨hc, hph⟩ := phaseOf_eq_some hphase
      exact .writeUserPtr hc hph
  | release id =>
      simp only [step] at hs
      split at hs <;> cases hs
      rename_i hphase
      obtain ⟨hc, hph⟩ := phaseOf_eq_some hphase
      exact .release hc hph
  | respond id r =>
      simp only [step] at hs
      split at hs <;> cases hs
      rename_i hphase
      obtain ⟨hc, hph⟩ := phaseOf_eq_some hphase
      exact .respond hc hph
  | deviceChange deviceType =>
      simp only [step] at hs
      split at hs <;> cases hs
      exact .deviceChange ‹_›
  | lock =>
      simp only [step] at hs
      split at hs <;> cases hs
      exact .lock ‹_› ‹_›
  | check =>
      simp only [step] at hs
      split at hs <;> cases hs
      exact .check ‹_›
  | invoke =>
      simp only [step] at hs
      split at hs <;> cases hs
      exact .invoke ‹_›
  | finish =>
      simp only [step] at hs
      split at hs <;> cases hs
      exact .finish ‹_›
  | unlock =>
      simp only [step] at hs
      split at hs <;> cases hs
      exact .unlock ‹_›

/-! ## The invariant -/

structure CallsOk (l : DeviceBarrier) : Prop where
  fresh : ∀ id, l.next ≤ id → l.calls id = none
  locked : ∀ id c, l.calls id = some c → c.phase.holds = true → l.lock = some (.call id)
  suffix : ∀ id c, l.calls id = some c → c.unwritten <:+ c.devtype.directions
  half : ∀ id c d todo, l.calls id = some c → c.phase = .half d todo →
    d :: todo <:+ c.devtype.directions ∧ l.cbBy d = some id
  history : ∀ d id, id ∈ l.history d ↔
    ∃ c, l.calls id = some c ∧ d ∈ c.devtype.directions ∧ d ∉ c.unwritten

/-- What holds of the callbacks. Both cells of a direction are written by the
same call, unless one is between its two writes (`paired`). -/
structure CallbacksOk (l : DeviceBarrier) : Prop where
  nodup : ∀ d, (l.history d).Nodup
  head : ∀ d, l.cbBy d = (l.history d).head?
  null : ∀ d, l.cbBy d = none → l.callbacks.cb d = none
  cb : ∀ d id, l.cbBy d = some id → ∃ c, l.calls id = some c ∧ l.callbacks.cb d = c.callback
  userPtr : ∀ d id, l.userPtrBy d = some id →
    ∃ c, l.calls id = some c ∧ l.callbacks.userPtr d = c.userPtr
  paired : ∀ d, (∀ id c todo, l.calls id = some c → c.phase ≠ .half d todo) →
    l.userPtrBy d = l.cbBy d

structure ServerOk (l : DeviceBarrier) : Prop where
  serving : l.server.holds = true → l.lock = some .server
  found : ∀ d callback cbBy todo, l.server = .found d callback cbBy todo →
    l.callbacks.cb d = some callback ∧ l.cbBy d = cbBy
  executing : ∀ d inv todo, l.server = .executing d inv todo →
    l.callbacks.cb d = some inv.callback ∧ l.callbacks.userPtr d = inv.userPtr ∧
      l.cbBy d = inv.cbBy ∧ l.userPtrBy d = inv.userPtrBy

structure Inv (l : DeviceBarrier) : Prop where
  calls : l.CallsOk
  callbacks : l.CallbacksOk
  server : l.ServerOk

theorem inv_new : new.Inv where
  calls := ⟨fun _ _ => rfl, fun _ _ hc => (by cases hc), fun _ _ hc => (by cases hc),
    fun _ _ _ _ hc => (by cases hc),
    fun _ _ => ⟨fun h => (by cases h), by rintro ⟨_, h, _⟩; cases h⟩⟩
  callbacks := ⟨fun _ => List.nodup_nil, fun _ => rfl, fun d _ => (by cases d <;> rfl),
    fun _ _ h => (by cases h), fun _ _ h => (by cases h), fun _ _ => rfl⟩
  server := ⟨fun h => (by cases h), fun _ _ _ _ h => (by cases h), fun _ _ _ h => by cases h⟩

theorem Inv.not_holds (h : l.Inv) (hlock : ∀ id, l.lock ≠ some (.call id))
    (hc : l.calls id = some c) : c.phase.holds = false := by
  cases hholds : c.phase.holds with
  | false => rfl
  | true => exact absurd (h.calls.locked id c hc hholds) (hlock id)

/-- The two fields of a direction belong together, unless a call has the lock. -/
theorem Inv.paired (h : l.Inv) (hlock : ∀ id, l.lock ≠ some (.call id)) (d : Direction) :
    l.userPtrBy d = l.cbBy d := by
  refine h.callbacks.paired d fun id c todo hc hph => ?_
  have hholds := h.not_holds hlock hc
  rw [hph] at hholds
  cases hholds

theorem Inv.serve (h : l.Inv) {server : ProcessPhase} {lock : Option LockHolder}
    (hlock : ∀ id c, l.calls id = some c → c.phase.holds = true → lock = some (.call id))
    (hserver : ({ l with server, lock } : DeviceBarrier).ServerOk) :
    ({ l with server, lock } : DeviceBarrier).Inv where
  calls := ⟨h.calls.fresh, hlock, h.calls.suffix, h.calls.half, h.calls.history⟩
  callbacks := ⟨h.callbacks.nodup, h.callbacks.head, h.callbacks.null, h.callbacks.cb,
    h.callbacks.userPtr, h.callbacks.paired⟩
  server := hserver

theorem Inv.serveOn (h : l.Inv) (hholds : l.server.holds = true) {server : ProcessPhase}
    (hfound : ∀ d callback cbBy todo, server = .found d callback cbBy todo →
      l.callbacks.cb d = some callback ∧ l.cbBy d = cbBy)
    (hexecuting : ∀ d inv todo, server = .executing d inv todo →
      l.callbacks.cb d = some inv.callback ∧ l.callbacks.userPtr d = inv.userPtr ∧
        l.cbBy d = inv.cbBy ∧ l.userPtrBy d = inv.userPtrBy) :
    ({ l with server } : DeviceBarrier).Inv :=
  h.serve h.calls.locked ⟨fun _ => h.server.serving hholds, hfound, hexecuting⟩

theorem check_inv (h : l.Inv) {d : Direction} {todo : List Direction}
    (hserver : l.server = .locked (d :: todo)) : (l.check d todo).Inv := by
  have hholds : l.server.holds = true := by rw [hserver]; rfl
  unfold check
  split
  · rename_i callback hcb
    refine h.serveOn hholds ?_ (fun _ _ _ heq => by cases heq)
    rintro d' callback' cbBy todo' ⟨⟩
    exact ⟨hcb, rfl⟩
  · exact h.serveOn hholds (fun _ _ _ _ heq => by cases heq) (fun _ _ _ heq => by cases heq)

theorem invoke_inv (h : l.Inv) {d : Direction} {callback : Nat} {cbBy : Option RegistrationId}
    {todo : List Direction} (hserver : l.server = .found d callback cbBy todo) :
    (l.invoke d callback cbBy todo).Inv := by
  have hholds : l.server.holds = true := by rw [hserver]; rfl
  obtain ⟨hcb, hby⟩ := h.server.found d callback cbBy todo hserver
  refine h.serveOn hholds (fun _ _ _ _ heq => by cases heq) ?_
  rintro d' inv todo' ⟨⟩
  exact ⟨hcb, rfl, hby, rfl⟩

end DeviceBarrier

end Audioipc

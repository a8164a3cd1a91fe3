import Mathlib.Data.List.Nodup
import Mathlib.Tactic.Common
import Audioipc.EventLoop
import Audioipc.Slab

/-!
# Calls on the handles of an event loop

The other side of the event loop: any number of threads that call
`bind_client`, `bind_server`, `bind_server_async`, `wake_connection` and
`shutdown` on clones of one `EventLoopHandle`. Of a connection only its
place in the slab and in the poll is left here; whether it is done after an
event or a wake is up to it.

The handles hold weak references to the queue. A call upgrades its own for
the time of `push`, so that the queue may live on for a while when the loop
has been dropped: `strong` counts the references. A request owns the sending
end of the channel on which its call waits, so what drops the queue also
answers the calls that wait for what is in it.

`Moves` says what a step does. `CallOk` is what holds of each call, `Inv` what
holds of the whole; that every step keeps it is shown in `SharedSteps`.
-/

namespace Audioipc

/-- A call on a handle, and the request that it makes. -/
abbrev RequestId := Nat

def WAKE_TOKEN : Token := 2 ^ 64 - 1

/-- `bind_client` and `bind_server` wait for their connection,
`bind_server_async` does not. -/
inductive CallKind where
  | addConnection
  | addConnectionAsync
  | shutdown
  | wakeConnection (token : Token)
deriving Repr, DecidableEq

/-- Where a call is: about to upgrade its reference to the queue, to push the
request, to release the reference (after a push that succeeded or not), or to
wake the loop; then, if it waits, in `rx.recv()`. -/
inductive HandlePhase where
  | start
  | upgraded
  | pushed (ok : Bool)
  | ringing
  | waiting
  | returned (r : Except IoError (Option Token))

namespace HandlePhase

def holds : HandlePhase → Bool
  | .upgraded | .pushed _ => true
  | _ => false

def beforePush : HandlePhase → Bool
  | .start | .upgraded => true
  | _ => false

/-- The request has been pushed, and the call has not returned. -/
def awaits : HandlePhase → Bool
  | .pushed true | .ringing | .waiting => true
  | _ => false

def work : HandlePhase → Nat
  | .start => 5
  | .upgraded => 4
  | .pushed _ => 3
  | .ringing => 2
  | .waiting => 1
  | .returned _ => 0

theorem beforePush_of_awaits {ph : HandlePhase} (h : ph.awaits = true) :
    ph.beforePush = false := by
  cases ph with
  | start | upgraded => cases h
  | _ => rfl

end HandlePhase

/-- The channel of a request, as its receiver finds it. A request without a
channel counts as closed. -/
inductive Reply where
  | pending
  | sent (r : Except IoError Token)
  | closed

/-- Who owns the pipe and the driver of a request. A request without them
counts as dropped. -/
inductive Place where
  | caller
  | queue
  | connection
  | dropped
deriving Repr, DecidableEq

structure HandleCall where
  kind : CallKind
  phase : HandlePhase
  reply : Reply
  place : Place

namespace HandleCall

def new : CallKind → HandleCall
  | .addConnection => ⟨.addConnection, .start, .pending, .caller⟩
  | .addConnectionAsync => ⟨.addConnectionAsync, .start, .closed, .caller⟩
  | kind => ⟨kind, .start, .closed, .dropped⟩

/-- What the call returns if its push fails. -/
def failure (c : HandleCall) : Except IoError (Option Token) :=
  match c.kind with
  | .wakeConnection _ => .ok none
  | _ => .error .connectionAborted

def lost (c : HandleCall) : HandleCall := { c with reply := .closed, place := .dropped }

def released (c : HandleCall) : HandleCall := { c with place := .dropped }

def enqueued (c : HandleCall) : HandleCall :=
  { c with
    phase := .pushed true
    place := match c.place with
      | .caller => .queue
      | place => place }

def answered (c : HandleCall) (r : Except IoError Token) : HandleCall :=
  match c.kind with
  | .addConnection => { c with reply := .sent r }
  | _ => c

/-- The loop is dropped with its connections. -/
def disconnected (c : HandleCall) : HandleCall :=
  match c.place with
  | .connection => c.released
  | _ => c

end HandleCall

structure LoopConnection where
  id : RequestId
  token : Token
deriving Repr, DecidableEq

/-- Where the loop is in `poll`, with the events that it has yet to handle.
It has `exited` when `poll` has returned `Ok(false)` or an error, or has
panicked. `step` handles a request as it pops it; where that makes a
difference to others the loop has `taken` it first, and is `answering` it
last. -/
inductive SharedPhase where
  | polling
  | events (es : List Token)
  | popping
  | taken (id : RequestId)
  | answering (id : RequestId) (r : Except IoError Token)
  | exited
  | dropped
deriving DecidableEq

/-- The loop has not seen `Shutdown`. -/
def SharedPhase.runs : SharedPhase → Bool
  | .exited | .dropped => false
  | _ => true

/-- `registry` is what is registered with the poll, and `inserted` the
connections there have been. `pushing` are the calls that hold a strong
reference to the queue, `entered` the requests that have been pushed and
`handled` those that have been popped. -/
structure SharedLoop where
  phase : SharedPhase
  connections : Slab LoopConnection
  registry : List LoopConnection
  queue : List RequestId
  calls : RequestId → Option HandleCall
  next : RequestId
  pushing : List RequestId
  entered : List RequestId
  handled : List RequestId
  inserted : List LoopConnection

/-- What handling a request meets: the key of `vacant_entry`, what the
registration with the poll returns, and whether `handle_wake` ends the
connection. -/
structure PopOutcome where
  key : Token
  register : Except IoError Unit
  done : Bool

/-- `done` is whether `handle_event` ends the connection. -/
inductive SharedAction where
  | call (kind : CallKind)
  | upgrade (id : RequestId)
  | push (id : RequestId)
  | release (id : RequestId)
  | ring (id : RequestId)
  | recv (id : RequestId)
  | poll (es : List Token)
  | event (done : Bool)
  | pop (out : PopOutcome)
  | drop

def SharedAction.isCall : SharedAction → Bool
  | .call _ => true
  | _ => false

namespace SharedLoop

def new : SharedLoop where
  phase := .polling
  connections := fun _ => none
  registry := []
  queue := []
  calls := fun _ => none
  next := 0
  pushing := []
  entered := []
  handled := []
  inserted := []

/-- The strong references to the queue. -/
def strong (l : SharedLoop) : Nat := l.pushing.length + if l.phase = .dropped then 0 else 1

def setCall (l : SharedLoop) (id : RequestId) (c : HandleCall) : SharedLoop :=
  { l with calls := Function.update l.calls id (some c) }

/-- The queue goes with the last strong reference. -/
def dropQueue (l : SharedLoop) : SharedLoop :=
  if l.strong = 0 then
    { l with
      queue := []
      calls := fun id => if id ∈ l.queue then (l.calls id).map .lost else l.calls id }
  else l

/-! ## The calls -/

/-- `self.inner.upgrade()`. -/
def upgrade (l : SharedLoop) (id : RequestId) (c : HandleCall) : SharedLoop :=
  if 0 < l.strong then
    { l.setCall id { c with phase := .upgraded } with pushing := id :: l.pushing }
  else l.setCall id { c.lost with phase := .returned c.failure }

/-- `consumer.queue.push(request)`. -/
def push (l : SharedLoop) (id : RequestId) (c : HandleCall) : SharedLoop :=
  if l.queue.length < EVENT_LOOP_INITIAL_CLIENTS then
    { l.setCall id c.enqueued with queue := l.queue ++ [id], entered := l.entered ++ [id] }
  else l.setCall id { c.lost with phase := .pushed false }

/-- The drop of `consumer`. -/
def release (l : SharedLoop) (id : RequestId) (c : HandleCall) (ok : Bool) : SharedLoop :=
  dropQueue { l.setCall id { c with phase := if ok then .ringing else .returned c.failure } with
    pushing := l.pushing.erase id }

/-- `self.waker.wake()`. -/
def ring (l : SharedLoop) (id : RequestId) (c : HandleCall) : SharedLoop :=
  match c.kind with
  | .addConnection => l.setCall id { c with phase := .waiting }
  | _ => l.setCall id { c with phase := .returned (.ok none) }

def recv (l : SharedLoop) (id : RequestId) (c : HandleCall) : Option SharedLoop :=
  match c.reply with
  | .pending => none
  | .sent r => some (l.setCall id { c with phase := .returned (r.map some) })
  | .closed => some (l.setCall id { c with phase := .returned (.error .connectionAborted) })

/-! ## The loop -/

/-- `self.connections.remove(token.0)` and the shutdown of the connection. -/
def remove (l : SharedLoop) (conn : LoopConnection) : SharedLoop :=
  let l := match l.calls conn.id with
    | none => l
    | some c => l.setCall conn.id c.released
  { l with
    connections := Function.update l.connections conn.token none
    registry := l.registry.filter (· ≠ conn) }

/-- An event or a wake for a token. -/
def handleToken (l : SharedLoop) (token : Token) (done : Bool) : SharedLoop :=
  match l.connections token with
  | none => l
  | some conn => if done then l.remove conn else l

/-- `tx.send(r).expect(..)`, if there is a `tx`. -/
def answer (l : SharedLoop) (id : RequestId) (c : HandleCall) (r : Except IoError Token) :
    SharedLoop :=
  match c.kind, c.phase with
  | .addConnection, .returned _ => { l.setCall id c with phase := .exited }
  | _, _ => l.setCall id (c.answered r)

/-- `EventLoop::add_connection` and the answer; the key is a vacant one. -/
def addConnection (l : SharedLoop) (id : RequestId) (c : HandleCall) (out : PopOutcome) :
    Option SharedLoop :=
  if (l.connections out.key).isSome then none
  else if out.key = WAKE_TOKEN then some { l.setCall id c.lost with phase := .exited }
  else
    match out.register with
    | .error e => some (l.answer id c.released (.error e))
    | .ok () =>
        let conn : LoopConnection := ⟨id, out.key⟩
        some (answer
          { l with
            connections := Function.update l.connections out.key (some conn)
            registry := conn :: l.registry
            inserted := conn :: l.inserted }
          id { c with place := .connection } (.ok out.key))

def handle (l : SharedLoop) (id : RequestId) (c : HandleCall) (out : PopOutcome) :
    Option SharedLoop :=
  match c.kind with
  | .addConnection | .addConnectionAsync => l.addConnection id c out
  | .shutdown => some { l with phase := .exited }
  | .wakeConnection token => some (l.handleToken token out.done)

def dropLoop (l : SharedLoop) : SharedLoop :=
  dropQueue { l with
    phase := .dropped
    connections := fun _ => none
    registry := []
    calls := fun id => (l.calls id).map .disconnected }

def step (l : SharedLoop) : SharedAction → Option SharedLoop
  | .call kind => some { l with
      calls := Function.update l.calls l.next (some (.new kind)), next := l.next + 1 }
  | .upgrade id =>
      match l.calls id with
      | some ⟨kind, .start, reply, place⟩ => some (l.upgrade id ⟨kind, .start, reply, place⟩)
      | _ => none
  | .push id =>
      match l.calls id with
      | some ⟨kind, .upgraded, reply, place⟩ => some (l.push id ⟨kind, .upgraded, reply, place⟩)
      | _ => none
  | .release id =>
      match l.calls id with
      | some ⟨kind, .pushed ok, reply, place⟩ =>
          some (l.release id ⟨kind, .pushed ok, reply, place⟩ ok)
      | _ => none
  | .ring id =>
      match l.calls id with
      | some ⟨kind, .ringing, reply, place⟩ => some (l.ring id ⟨kind, .ringing, reply, place⟩)
      | _ => none
  | .recv id =>
      match l.calls id with
      | some ⟨kind, .waiting, reply, place⟩ => l.recv id ⟨kind, .waiting, reply, place⟩
      | _ => none
  | .poll es =>
      match l.phase with
      | .polling => some { l with phase := .events es }
      | _ => none
  | .event done =>
      match l.phase with
      | .events [] => some { l with phase := .popping }
      | .events (token :: es) =>
          if token = WAKE_TOKEN then some { l with phase := .events es }
          else some ({ l with phase := .events es }.handleToken token done)
      | _ => none
  | .pop out =>
      match l.phase, l.queue with
      | .popping, [] => some { l with phase := .polling }
      | .popping, id :: queue =>
          match l.calls id with
          | none => none
          | some c => { l with queue, handled := l.handled ++ [id] }.handle id c out
      | _, _ => none
  | .drop =>
      match l.phase with
      | .exited => some l.dropLoop
      | _ => none

variable {l l' : SharedLoop} {id : RequestId} {c c' : HandleCall}

inductive Moves (l : SharedLoop) : SharedAction → SharedLoop → Prop
  | called {kind : CallKind} : Moves l (.call kind) { l with
      calls := Function.update l.calls l.next (some (.new kind)), next := l.next + 1 }
  | upgraded {id : RequestId} {c : HandleCall} (hc : l.calls id = some c)
      (hph : c.phase = .start) : Moves l (.upgrade id) (l.upgrade id c)
  | pushed {id : RequestId} {c : HandleCall} (hc : l.calls id = some c)
      (hph : c.phase = .upgraded) : Moves l (.push id) (l.push id c)
  | released {id : RequestId} {c : HandleCall} {ok : Bool} (hc : l.calls id = some c)
      (hph : c.phase = .pushed ok) : Moves l (.release id) (l.release id c ok)
  | rung {id : RequestId} {c : HandleCall} (hc : l.calls id = some c)
      (hph : c.phase = .ringing) : Moves l (.ring id) (l.ring id c)
  | received {id : RequestId} {c : HandleCall} {l' : SharedLoop} (hc : l.calls id = some c)
      (hph : c.phase = .waiting) (hrecv : l.recv id c = some l') : Moves l (.recv id) l'
  | polled {es : List Token} (hph : l.phase = .polling) :
      Moves l (.poll es) { l with phase := .events es }
  | handledEvents {done : Bool} (hph : l.phase = .events []) :
      Moves l (.event done) { l with phase := .popping }
  | woken {done : Bool} {es : List Token} (hph : l.phase = .events (WAKE_TOKEN :: es)) :
      Moves l (.event done) { l with phase := .events es }
  | event {done : Bool} {token : Token} {es : List Token} (hph : l.phase = .events (token :: es))
      (htoken : token ≠ WAKE_TOKEN) :
      Moves l (.event done) ({ l with phase := .events es }.handleToken token done)
  | emptied {out : PopOutcome} (hph : l.phase = .popping) (hqueue : l.queue = []) :
      Moves l (.pop out) { l with phase := .polling }
  | popped {out : PopOutcome} {id : RequestId} {queue : List RequestId} {c : HandleCall}
      {l' : SharedLoop} (hph : l.phase = .popping) (hqueue : l.queue = id :: queue)
      (hc : l.calls id = some c)
      (hhandle : { l with queue, handled := l.handled ++ [id] }.handle id c out = some l') :
      Moves l (.pop out) l'
  | dropped (hph : l.phase = .exited) : Moves l .drop l.dropLoop

theorem step_cases {a : SharedAction} (hs : l.step a = some l') : l.Moves a l' := by
  cases a with
  | call kind =>
      cases hs
      exact .called
  | upgrade id =>
      simp only [step] at hs
      split at hs <;> cases hs
      exact .upgraded ‹_› rfl
  | push id =>
      simp only [step] at hs
      split at hs <;> cases hs
      exact .pushed ‹_› rfl
  | release id =>
      simp only [step] at hs
      split at hs <;> cases hs
      exact .released ‹_› rfl
  | ring id =>
      simp only [step] at hs
      split at hs <;> cases hs
      exact .rung ‹_› rfl
  | recv id =>
      simp only [step] at hs
      split at hs
      · exact .received ‹_› rfl hs
      · cases hs
  | poll es =>
      simp only [step] at hs
      split at hs <;> cases hs
      exact .polled ‹_›
  | event done =>
      simp only [step] at hs
      split at hs
      · cases hs
        exact .handledEvents ‹_›
      · rename_i token es hph
        split at hs <;> cases hs
        · rename_i htoken
          rw [htoken] at hph
          exact .woken hph
        · exact .event hph ‹_›
      · cases hs
  | pop out =>
      simp only [step] at hs
      split at hs
      · cases hs
        exact .emptied ‹_› ‹_›
      · split at hs
        · cases hs
        · exact .popped ‹_› ‹_› ‹_› hs
      · cases hs
  | drop =>
      simp only [step] at hs
      split at hs <;> cases hs
      exact .dropped ‹_›

/-! ## What holds of each call -/

/-- In particular nobody but the queue can answer a call that waits (`waits`).
-/
structure CallOk (l : SharedLoop) (id : RequestId) (c : HandleCall) : Prop where
  pushing : id ∈ l.pushing ↔ c.phase.holds = true
  entered : c.phase.beforePush = true → id ∉ l.entered
  channel : c.reply = .pending → c.kind = .addConnection
  pipe : c.place ≠ .dropped → c.kind = .addConnection ∨ c.kind = .addConnectionAsync
  waits : c.reply = .pending → c.phase.awaits = true → id ∈ l.queue
  refused : c.phase = .pushed false → c.reply = .closed
  owned : c.place = .caller → c.phase.beforePush = true
  queued : c.place = .queue → id ∈ l.queue
  connected : c.place = .connection → ∃ t, l.connections t = some ⟨id, t⟩
  sent : ∀ t, c.reply = .sent (.ok t) → (⟨id, t⟩ : LoopConnection) ∈ l.inserted
  unsent : c.phase.beforePush = true → c.kind = .addConnection → c.reply = .pending
  unanswered : id ∈ l.queue → c.kind = .addConnection →
    c.reply = .pending ∧ c.phase.awaits = true
  returned : ∀ r, c.phase = .returned r → c.kind = .addConnection →
    (∃ r', c.reply = .sent r' ∧ r = r'.map some) ∨
    (c.reply = .closed ∧ r = .error .connectionAborted)

/-- What a step leaves of the calls it is not about. -/
structure Frame (l l' : SharedLoop) (id : RequestId) : Prop where
  calls : ∀ id' ≠ id, l'.calls id' = l.calls id'
  pushing : ∀ id' ≠ id, (id' ∈ l'.pushing ↔ id' ∈ l.pushing)
  entered : ∀ id' ≠ id, id' ∈ l'.entered → id' ∈ l.entered
  queue : ∀ id' ≠ id, (id' ∈ l'.queue ↔ id' ∈ l.queue)
  connections : ∀ id' ≠ id, ∀ t, l.connections t = some ⟨id', t⟩ →
    l'.connections t = some ⟨id', t⟩
  inserted : l.inserted ⊆ l'.inserted

theorem Frame.callOk (hf : Frame l l' id) {id' : RequestId} (hne : id' ≠ id)
    (h : l.CallOk id' c) : l'.CallOk id' c where
  pushing := (hf.pushing id' hne).trans h.pushing
  entered := fun hb he => h.entered hb (hf.entered id' hne he)
  channel := h.channel
  pipe := h.pipe
  waits := fun hr ha => (hf.queue id' hne).mpr (h.waits hr ha)
  refused := h.refused
  owned := h.owned
  queued := fun hp => (hf.queue id' hne).mpr (h.queued hp)
  connected := fun hp => by
    obtain ⟨t, ht⟩ := h.connected hp
    exact ⟨t, hf.connections id' hne t ht⟩
  sent := fun t hr => hf.inserted (h.sent t hr)
  unsent := h.unsent
  unanswered := fun hq => h.unanswered ((hf.queue id' hne).mp hq)
  returned := h.returned

structure CallsOk (l : SharedLoop) : Prop where
  ok : ∀ id c, l.calls id = some c → l.CallOk id c
  fresh : ∀ id, l.next ≤ id → l.calls id = none
  pushing : ∀ id ∈ l.pushing, (l.calls id).isSome
  entered : ∀ id ∈ l.entered, (l.calls id).isSome
  nodup : l.pushing.Nodup

/-- A step of one call, after which all is well with it. -/
theorem CallsOk.frame (h : l.CallsOk) (hf : Frame l l' id) (hc : l'.calls id = some c)
    (hok : l'.CallOk id c) (hnext : l'.next = l.next) (hlt : id < l.next)
    (hnodup : l'.pushing.Nodup) : l'.CallsOk where
  ok id' c₁ hc₁ := by
    by_cases hid : id' = id
    · subst hid
      rw [hc] at hc₁
      cases hc₁
      exact hok
    · exact hf.callOk hid (h.ok id' c₁ (hf.calls id' hid ▸ hc₁))
  fresh id' hle := by
    rw [hnext] at hle
    have hne : id' ≠ id := Nat.ne_of_gt (Nat.lt_of_lt_of_le hlt hle)
    rw [hf.calls id' hne]
    exact h.fresh id' hle
  pushing id' hin := by
    by_cases hid : id' = id
    · rw [hid, hc]; rfl
    · rw [hf.calls id' hid]
      exact h.pushing id' ((hf.pushing id' hid).mp hin)
  entered id' hin := by
    by_cases hid : id' = id
    · rw [hid, hc]; rfl
    · rw [hf.calls id' hid]
      exact h.entered id' (hf.entered id' hid hin)
  nodup := hnodup

theorem CallsOk.lt (h : l.CallsOk) (hc : l.calls id = some c) : id < l.next := by
  by_contra hle
  rw [h.fresh id (Nat.le_of_not_lt hle)] at hc
  cases hc

/-! ## The order of the requests -/

def NoShutdown (l : SharedLoop) (id : RequestId) : Prop :=
  ∀ c, l.calls id = some c → c.kind ≠ .shutdown

/-- What has entered the queue was popped or is there, until the queue is
dropped. -/
structure Ordered (l : SharedLoop) : Prop where
  nodup : l.entered.Nodup
  order : l.entered = l.handled ++ l.queue ∨
    (l.strong = 0 ∧ l.queue = [] ∧ l.handled <+: l.entered)
  before : ∀ id ∈ l.handled.dropLast, l.NoShutdown id
  last : l.phase.runs = true → ∀ id ∈ l.handled, l.NoShutdown id

/-! ## The connections -/

structure Registered (l : SharedLoop) : Prop where
  slab : ∀ t conn, l.connections t = some conn →
    conn.token = t ∧ conn ∈ l.registry ∧ conn ∈ l.inserted
  registry : ∀ conn ∈ l.registry, l.connections conn.token = some conn
  inserted : ∀ conn ∈ l.inserted, conn.token ≠ WAKE_TOKEN
  dropped : l.phase = .dropped → ∀ t, l.connections t = none

/-- The queue goes with the last reference (`alive`). -/
structure Inv (l : SharedLoop) : Prop where
  calls : l.CallsOk
  ordered : l.Ordered
  registered : l.Registered
  alive : l.strong = 0 → l.queue = []

theorem inv_new : new.Inv where
  calls := ⟨fun _ _ hc => (by cases hc), fun _ _ => rfl, fun _ hin => absurd hin List.not_mem_nil,
    fun _ hin => absurd hin List.not_mem_nil, List.nodup_nil⟩
  ordered := ⟨List.nodup_nil, Or.inl rfl, fun _ hin => absurd hin List.not_mem_nil,
    fun _ _ hin => absurd hin List.not_mem_nil⟩
  registered := ⟨fun _ _ ht => (by cases ht), fun _ hin => absurd hin List.not_mem_nil,
    fun _ hin => absurd hin List.not_mem_nil, fun hdropped => by cases hdropped⟩
  alive := fun _ => rfl

theorem strong_pos (h : l.phase ≠ .dropped) : 0 < l.strong := by
  unfold strong
  rw [if_neg h]
  exact Nat.succ_pos _

theorem strong_pos_of_mem (h : id ∈ l.pushing) : 0 < l.strong :=
  Nat.add_pos_left (List.length_pos_of_mem h) _

theorem NoShutdown.of_kind {id' : RequestId} (hcalls : ∀ c', l'.calls id' = some c' →
    ∃ c, l.calls id' = some c ∧ c'.kind = c.kind) (h : l.NoShutdown id') : l'.NoShutdown id' := by
  intro c' hc'
  obtain ⟨c, hc, hkind⟩ := hcalls c' hc'
  rw [hkind]
  exact h c hc

/-- The calls have the kinds they had. -/
def SameKinds (l l' : SharedLoop) : Prop :=
  ∀ id c', l'.calls id = some c' → ∃ c, l.calls id = some c ∧ c'.kind = c.kind

theorem sameKinds_setCall (hc : l.calls id = some c) (hkind : c'.kind = c.kind) :
    SameKinds l (l.setCall id c') := by
  intro id' c₁ hc₁
  rcases Slab.insert_cases hc₁ with ⟨rfl, rfl⟩ | ⟨-, hc₁⟩
  · exact ⟨c, hc, hkind⟩
  · exact ⟨c₁, hc₁, rfl⟩

theorem Ordered.congr (h : l.Ordered) (hkinds : SameKinds l l') (hentered : l'.entered = l.entered)
    (hhandled : l'.handled = l.handled) (hqueue : l'.queue = l.queue)
    (hstrong : l.entered = l.handled ++ l.queue ∨ l'.strong = 0)
    (hphase : l'.phase.runs = true → l.phase.runs = true) : l'.Ordered where
  nodup := hentered ▸ h.nodup
  order := by
    rw [hentered, hhandled, hqueue]
    rcases h.order with hall | ⟨-, hnil, hbefore⟩
    · exact Or.inl hall
    · rcases hstrong with hall | hzero
      · exact Or.inl hall
      · exact Or.inr ⟨hzero, hnil, hbefore⟩
  before id hin := (h.before id (hhandled ▸ hin)).of_kind (hkinds id)
  last hruns id hin := (h.last (hphase hruns) id (hhandled ▸ hin)).of_kind (hkinds id)

end SharedLoop

end Audioipc

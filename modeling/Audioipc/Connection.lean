import Audioipc.Lane

/-!
# Connections

`ipccore.rs`'s `Connection`: what `handle_event` and `handle_wake` do to the
pipe, the two buffers and the driver. The event loop is one thread, but
other threads and the peer act between any two of its steps, so the two
functions are given as a state machine. `Phase` is the place in the code;
an action is one turn of one of its loops, with the outcome of the system
call or of the handler.

A connection that gets an error, hits EOF while sending, or panics is
`removed`: its handler is dropped and its buffers are not looked at again.
`Log` records what the connection has done; no step depends on it.
-/

namespace Audioipc

/-- Where in `handle_event` or `handle_wake` the loop thread is: about to call
`recv_msg` in `recv_inbound`, in `process_inbound`, in `flush_outbound`, in the
loop of `send_outbound`, or out of that after a send that would block. `done`
is what `recv_inbound` returned. -/
inductive Phase where
  | idle
  | recv
  | process
  | flush (done : Bool)
  | send (done : Bool)
  | blocked (done : Bool)
  | removed
deriving Repr, DecidableEq

section Connection

variable {P In Out H E : Type} [AssociateHandleForMessage In] [AssociateHandleForMessage Out]

/-- What a connection has done so far: the messages encoded into the outbound
buffer and passed to the handler, and the descriptors that `send_msg`
transferred and `recv_msg` pushed to the inbound buffer. -/
structure Log (In Out : Type) [AssociateHandleForMessage In]
    [AssociateHandleForMessage Out] where
  sent : List (Item Out)
  received : List (Item In)
  transferred : List Handle
  pushed : List Handle

structure Connection (P In Out H : Type) [AssociateHandleForMessage In]
    [AssociateHandleForMessage Out] where
  phase : Phase
  io : P
  driver : FramedDriver H
  inbound : ConnectionBuffer
  outbound : ConnectionBuffer
  panic : Option Panic
  log : Log In Out

/-- The steps of the loop thread on a connection, and (`other`) those of other
threads on what they share with its handler. A `wake` is for the token, and may
be meant for an earlier connection that had it. `finish` is the end of
`handle_event` or `handle_wake`, where `registered` is whether the registration
was updated, and `shutdown` is that of the loop or its drop. -/
inductive ConnAction (E : Type) where
  | event (readable : Bool)
  | wake
  | recvMsg (r : Except IoError Nat)
  | processItem (e : E)
  | flushItem (e : E)
  | sendMsg (r : Except IoError Nat)
  | finish (registered : Bool)
  | shutdown
  | other (e : E)

/-- The step is one of another thread. -/
def ConnAction.isOther {E : Type} : ConnAction E → Bool
  | .other _ => true
  | _ => false

namespace Connection

def new (io : P) (handler : H) : Connection P In Out H where
  phase := .idle
  io := io
  driver := ⟨.default, handler⟩
  inbound := .empty
  outbound := .empty
  panic := none
  log := ⟨[], [], [], []⟩

/-- Removal from the event loop's slab. -/
def close (ops : HandlerOps In Out H E) (c : Connection P In Out H) : Connection P In Out H :=
  { c with
    phase := .removed
    driver := { c.driver with handler := ops.drop c.driver.handler } }

def unwind (ops : HandlerOps In Out H E) (c : Connection P In Out H) (p : Panic) :
    Connection P In Out H :=
  { c.close ops with panic := some p }

/-- `handle_event` up to its first loop. -/
def handleEvent (c : Connection P In Out H) (readable : Bool) : Connection P In Out H :=
  { c with phase := if readable then .recv else .flush false }

/-- `handle_wake` up to its first loop. -/
def handleWake (c : Connection P In Out H) : Connection P In Out H :=
  { c with phase := .flush false }

/-- `recv_inbound` up to its call of `process_inbound`. -/
def recvInbound (pipe : PipeOps P) (ops : HandlerOps In Out H E) (c : Connection P In Out H)
    (w : List Tok) (r : Except IoError Nat) : Option (Connection P In Out H × List Tok) :=
  match pipe.recvMsg c.io c.inbound r w with
  | none => none
  | some (.error p) => some (c.unwind ops p, w)
  | some (.ok (res, io, inbound, w')) =>
      let pushed := c.log.pushed ++ inbound.handles.drop c.inbound.handles.length
      let c' := { c with io, inbound, log := { c.log with pushed } }
      match res with
      | .ok 0 => some ({ c' with phase := .flush true }, w')
      | .ok _ => some ({ c' with phase := .process }, w')
      | .error .wouldBlock => some ({ c' with phase := .flush false }, w')
      | .error .interrupted => some (c', w')
      | .error _ => some (c'.close ops, w')

/-- A turn of `process_inbound`; after its last, `recv_inbound` goes on. -/
def processInbound [Bincode In] (ops : HandlerOps In Out H E) (c : Connection P In Out H)
    (e : E) : Option (Connection P In Out H) :=
  match c.driver.processItem ops e c.inbound with
  | none => none
  | some t =>
      let received := c.log.received ++ t.item.toList
      let c' := { c with
        driver := t.driver, inbound := t.buffer, log := { c.log with received } }
      match t.result with
      | .error p => some (c'.unwind ops p)
      | .ok (.error _) => some (c'.close ops)
      | .ok (.ok true) => some c'
      | .ok (.ok false) => some { c' with phase := .recv }

/-- A turn of `flush_outbound`. -/
def flushOutbound [Bincode Out] (ops : HandlerOps In Out H E) (c : Connection P In Out H)
    (done : Bool) (e : E) : Option (Connection P In Out H) :=
  match c.driver.flushItem ops e c.outbound with
  | none => none
  | some t =>
      let sent := c.log.sent ++ t.item.toList
      let c' := { c with
        driver := t.driver, outbound := t.buffer, log := { c.log with sent } }
      match t.result with
      | .error p => some (c'.unwind ops p)
      | .ok (.error _) => some (c'.close ops)
      | .ok (.ok true) => some c'
      | .ok (.ok false) => some { c' with phase := .send done }

/-- A turn of the loop of `send_outbound`, with what went onto the stream. -/
def sendOutbound (pipe : PipeOps P) (ops : HandlerOps In Out H E) (c : Connection P In Out H)
    (done : Bool) (r : Except IoError Nat) : Option (Connection P In Out H × List Tok) :=
  if c.outbound.buf.isEmpty then none
  else
    match pipe.sendMsg c.io c.outbound r with
    | none => none
    | some (.error p) => some (c.unwind ops p, [])
    | some (.ok (res, io, outbound, toks)) =>
        let c' := { c with
          io, outbound, log := { c.log with transferred := c.log.transferred ++ fdsOf toks } }
        match res with
        -- EOF: the connection goes, and its outbound buffer with it
        | .ok 0 => some (c.close ops, toks)
        | .ok _ => some (c', toks)
        | .error .wouldBlock => some ({ c' with phase := .blocked done }, toks)
        | .error .interrupted => some (c', toks)
        | .error _ => some (c'.close ops, toks)

/-- The rest of `send_outbound` and of its caller. -/
def finish (ops : HandlerOps In Out H E) (c : Connection P In Out H) (done registered : Bool) :
    Connection P In Out H :=
  if registered && !(done && c.outbound.buf.isEmpty) then { c with phase := .idle }
  else c.close ops

/-- One step, given the stream from the peer: the connection after it, what
it put on the stream to the peer, and the rest of the stream from the peer. -/
def step [Bincode In] [Bincode Out] (pipe : PipeOps P) (ops : HandlerOps In Out H E)
    (c : Connection P In Out H) (w : List Tok) (a : ConnAction E) :
    Option (Connection P In Out H × List Tok × List Tok) :=
  match c.phase, a with
  | .idle, .event readable => some (c.handleEvent readable, [], w)
  | .idle, .wake => some (c.handleWake, [], w)
  | .idle, .shutdown => some (c.close ops, [], w)
  | .recv, .recvMsg r => (c.recvInbound pipe ops w r).map fun (c', w') => (c', [], w')
  | .process, .processItem e => (c.processInbound ops e).map fun c' => (c', [], w)
  | .flush done, .flushItem e => (c.flushOutbound ops done e).map fun c' => (c', [], w)
  | .send done, .sendMsg r => (c.sendOutbound pipe ops done r).map fun (c', toks) => (c', toks, w)
  | .send done, .finish registered =>
      if c.outbound.buf.isEmpty then some (c.finish ops done registered, [], w) else none
  | .blocked done, .finish registered => some (c.finish ops done registered, [], w)
  | _, .other e =>
      (ops.other e c.driver.handler).map fun handler =>
        ({ c with driver := { c.driver with handler } }, [], w)
  | _, _ => none

theorem step_other [Bincode In] [Bincode Out] {pipe : PipeOps P} {ops : HandlerOps In Out H E}
    {c : Connection P In Out H} {w : List Tok} {e : E} :
    c.step pipe ops w (.other e) = (ops.other e c.driver.handler).map fun handler =>
      ({ c with driver := { c.driver with handler } }, [], w) := by
  unfold step
  cases c.phase <;> rfl

section Inversion

variable [Bincode In] [Bincode Out] {pipe : PipeOps P} {ops : HandlerOps In Out H E}
  {c c' : Connection P In Out H} {w w' toks : List Tok}

theorem step_recvMsg {r : Except IoError Nat}
    (h : c.step pipe ops w (.recvMsg r) = some (c', toks, w')) :
    c.phase = .recv ∧ c.recvInbound pipe ops w r = some (c', w') := by
  unfold step at h
  split at h
  case h_4 hph heq =>
    cases heq
    obtain ⟨⟨c₁, w₁⟩, hrecv, heq⟩ := Option.map_eq_some_iff.mp h
    cases heq
    exact ⟨hph, hrecv⟩
  all_goals simp_all

theorem step_flushItem {e : E} (h : c.step pipe ops w (.flushItem e) = some (c', toks, w')) :
    ∃ done, c.phase = .flush done ∧ c.flushOutbound ops done e = some c' := by
  unfold step at h
  split at h
  case h_6 hph heq =>
    cases heq
    obtain ⟨c₁, hflush, heq⟩ := Option.map_eq_some_iff.mp h
    cases heq
    exact ⟨_, hph, hflush⟩
  all_goals simp_all

theorem step_sendMsg {r : Except IoError Nat}
    (h : c.step pipe ops w (.sendMsg r) = some (c', toks, w')) :
    ∃ done, c.phase = .send done ∧ c.sendOutbound pipe ops done r = some (c', toks) := by
  unfold step at h
  split at h
  case h_7 hph heq =>
    cases heq
    obtain ⟨⟨c₁, toks₁⟩, hsend, heq⟩ := Option.map_eq_some_iff.mp h
    cases heq
    exact ⟨_, hph, hsend⟩
  all_goals simp_all

/-- A loop thread does nothing more for a connection that is removed. -/
theorem step_up {a : ConnAction E} (h : c.step pipe ops w a = some (c', toks, w'))
    (ha : a.isOther = false) : c.phase ≠ .removed := by
  intro hph
  unfold step at h
  rw [hph] at h
  cases a with
  | other => cases ha
  | _ => simp at h

end Inversion

end Connection

end Connection

end Audioipc

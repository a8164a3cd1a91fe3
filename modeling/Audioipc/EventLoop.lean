import Audioipc.Slab
import Audioipc.Release

/-!
# The event loop

`ipccore.rs`: one `EventLoop`, the client connections it owns, and the
threads that call through their proxies. A call first pushes its request to
the queue of its connection, then `WakeConnection` to the queue of the loop,
and then wakes the loop's `Waker`. The two queues are separate, and the
second is shared by all connections and holds `EVENT_LOOP_INITIAL_CLIENTS`
requests; `wake_connection` does nothing when it is full.

What a step does is said once (`Moves`), and the invariants are read off it.
`Slabbed` says that the slab has exactly the connections that are not
removed, each under its own token. What is said about wakes is in `Wakes`.
-/

namespace Audioipc

/-- A key of the slab of connections. -/
abbrev Token := Nat

/-- A connection, as opposed to the slab key it has; keys are reused. -/
abbrev ConnId := Nat

/-- The capacity of the request queue of the loop. -/
def EVENT_LOOP_INITIAL_CLIENTS : Nat := 64

inductive Request (P : Type) where
  | addConnection (io : P)
  | wakeConnection (token : Token)
  | shutdown
deriving Repr, DecidableEq

/-- Where the loop thread is in `EventLoop::poll`: blocked in `self.poll.poll`,
at these `events`, in the loop over `self.requests.pop()`, or in `handle_event`
or `handle_wake` of a connection. -/
inductive LoopPhase where
  | polling
  | events (es : List (Token × Bool))
  | popping
  | handlingEvent (id : ConnId) (es : List (Token × Bool))
  | handlingWake (id : ConnId)
  | stopped
deriving Repr, DecidableEq

def LoopPhase.current : LoopPhase → Option ConnId
  | .handlingEvent id _ => some id
  | .handlingWake id => some id
  | _ => none

/-- Where the loop thread goes on after a connection. -/
def LoopPhase.next : LoopPhase → LoopPhase
  | .handlingEvent _ es => .events es
  | .handlingWake _ => .popping
  | ph => ph

theorem LoopPhase.next_of_current {ph : LoopPhase} {id : ConnId} (h : ph.current = some id) :
    ph.next.current = none ∧ ph.next ≠ .polling ∧ ph.next ≠ .stopped := by
  cases ph with
  | handlingEvent _ es => exact ⟨rfl, nofun, nofun⟩
  | handlingWake _ => exact ⟨rfl, nofun, nofun⟩
  | _ => cases h

section EventLoop

variable {P Req Resp : Type} [Bincode Req] [AssociateHandleForMessage Req]
  [Bincode Resp] [AssociateHandleForMessage Resp]

/-- A connection and the token its proxies have. -/
structure Entry (P Req Resp : Type) [AssociateHandleForMessage Req]
    [AssociateHandleForMessage Resp] where
  token : Token
  conn : ClientConnection P Req Resp

/-- `entries` are all connections there have been, as their proxies outlive
them. The `waker` has been signalled since the last `poll` returned; `owing`
are the calls that have pushed their request and not yet their wake, and
`ringing` the threads that have pushed to `requests` and not yet woken the
waker. -/
structure EventLoop (P Req Resp : Type) [AssociateHandleForMessage Req]
    [AssociateHandleForMessage Resp] where
  phase : LoopPhase
  slab : Token → Option ConnId
  entries : ConnId → Option (Entry P Req Resp)
  requests : List (Request P)
  waker : Bool
  owing : List (ConnId × CallId)
  ringing : Nat

/-- `poll` returns with events, and `popRequest` takes what a new connection
gets if its registration succeeds. `conn` is a step of the connection that the
loop is at, with the stream from its peer; `caller` one of a caller on a
connection, which then has to `pushWake`. `pushRequest` is any other push:
those of `bind_client` and `shutdown`, and the wake of the drop of the last
proxy. `ring` is `self.waker.wake()`. -/
inductive LoopAction (P Req : Type) [AssociateHandleForMessage Req] where
  | poll (es : List (Token × Bool))
  | nextEvent
  | popRequest (fresh : Option (ConnId × Token))
  | conn (w : List Tok) (a : ConnAction (RpcAction (Item Req)))
  | caller (id : ConnId) (a : RpcAction (Item Req))
  | pushWake (id : ConnId) (call : CallId)
  | pushRequest (r : Request P)
  | ring

namespace EventLoop

def new : EventLoop P Req Resp :=
  ⟨.polling, fun _ => none, fun _ => none, [], false, [], 0⟩

def setConn (l : EventLoop P Req Resp) (id : ConnId) (e : Entry P Req Resp)
    (conn : ClientConnection P Req Resp) : EventLoop P Req Resp :=
  { l with entries := Function.update l.entries id (some { e with conn }) }

/-- `self.connections.get_mut(token.0)`, and if there is a connection the
start of its handling; a spurious token is ignored. -/
def enter (l : EventLoop P Req Resp) (token : Token) (phase : ConnId → LoopPhase)
    (start : ClientConnection P Req Resp → ClientConnection P Req Resp) :
    EventLoop P Req Resp :=
  match l.slab token with
  | none => l
  | some id =>
      match l.entries id with
      | none => l
      | some e => { l.setConn id e (start e.conn) with phase := phase id }

/-- What the push of a request leaves its caller to do. -/
def owed (conn : ClientConnection P Req Resp) (id : ConnId) :
    RpcAction (Item Req) → List (ConnId × CallId)
  | .push i =>
      match conn.driver.handler.calls i with
      | some ⟨_, .pushed true, _, _⟩ => [(id, i)]
      | _ => []
  | _ => []

/-- A call does not wait before it has pushed its wake. -/
def mayStep (l : EventLoop P Req Resp) (id : ConnId) : RpcAction (Item Req) → Bool
  | .finish i => (id, i) ∉ l.owing
  | _ => true

def step (pipe : PipeOps P) (l : EventLoop P Req Resp) :
    LoopAction P Req → Option (EventLoop P Req Resp)
  | .poll es =>
      match l.phase with
      | .polling => some { l with phase := .events es, waker := false }
      | _ => none
  | .nextEvent =>
      match l.phase with
      | .events [] => some { l with phase := .popping }
      | .events ((token, readable) :: es) =>
          some ({ l with phase := .events es }.enter token (.handlingEvent · es)
            (·.handleEvent readable))
      | _ => none
  | .popRequest fresh =>
      match l.phase, l.requests with
      | .popping, [] => some { l with phase := .polling }
      | .popping, .wakeConnection token :: requests =>
          some ({ l with requests }.enter token .handlingWake (·.handleWake))
      | .popping, .shutdown :: requests =>
          -- `poll` returns `Ok(false)`, and the loop is dropped with all connections
          some { l with
            phase := .stopped
            requests
            slab := fun _ => none
            entries := fun id => (l.entries id).map fun e =>
              { e with conn := e.conn.close clientOps } }
      | .popping, .addConnection io :: requests =>
          match fresh with
          | none => some { l with requests }
          | some (id, token) =>
              if (l.entries id).isNone && (l.slab token).isNone then
                some { l with
                  requests
                  slab := Function.update l.slab token (some id)
                  entries := Function.update l.entries id (some ⟨token, .new io .new⟩) }
              else none
      | _, _ => none
  | .conn w a =>
      match l.phase.current with
      | none => none
      | some id =>
          match l.entries id with
          | none => none
          | some e =>
              if a.isOther then none
              else
                match clientStep pipe e.conn (w, a) with
                | none => none
                | some conn =>
                    let l' := l.setConn id e conn
                    match conn.phase with
                    | .idle => some { l' with phase := l.phase.next }
                    | .removed => some { l' with
                        phase := l.phase.next, slab := Function.update l.slab e.token none }
                    | _ => some l'
  | .caller id a =>
      match l.entries id with
      | none => none
      | some e =>
          if l.mayStep id a then
            match clientStep pipe e.conn ([], .other a) with
            | none => none
            | some conn => some { l.setConn id e conn with owing := l.owing ++ owed conn id a }
          else none
  | .pushWake id call =>
      match l.entries id with
      | none => none
      | some e =>
          if (id, call) ∈ l.owing ∧ callIs Call.inPush e.conn.driver.handler.calls call = false then
            let l' := { l with owing := l.owing.erase (id, call) }
            if l.phase ≠ .stopped ∧ l.requests.length < EVENT_LOOP_INITIAL_CLIENTS then
              some { l' with
                requests := l.requests ++ [.wakeConnection e.token], ringing := l.ringing + 1 }
            else some l'
          else none
  | .pushRequest r =>
      if l.phase ≠ .stopped ∧ l.requests.length < EVENT_LOOP_INITIAL_CLIENTS then
        some { l with requests := l.requests ++ [r], ringing := l.ringing + 1 }
      else some l
  | .ring =>
      if 0 < l.ringing then some { l with ringing := l.ringing - 1, waker := true } else none

structure AtConn (pipe : PipeOps P) (l : EventLoop P Req Resp) (w : List Tok)
    (a : ConnAction (RpcAction (Item Req))) (id : ConnId) (e : Entry P Req Resp)
    (conn : ClientConnection P Req Resp) : Prop where
  current : l.phase.current = some id
  entry : l.entries id = some e
  own : a.isOther = false
  step : clientStep pipe e.conn (w, a) = some conn

inductive Moves (pipe : PipeOps P) (l : EventLoop P Req Resp) :
    LoopAction P Req → EventLoop P Req Resp → Prop
  | polled {es : List (Token × Bool)} (hph : l.phase = .polling) :
      Moves pipe l (.poll es) { l with phase := .events es, waker := false }
  | handled (hph : l.phase = .events []) : Moves pipe l .nextEvent { l with phase := .popping }
  | event {token : Token} {readable : Bool} {es : List (Token × Bool)}
      (hph : l.phase = .events ((token, readable) :: es)) :
      Moves pipe l .nextEvent ({ l with phase := .events es }.enter token (.handlingEvent · es)
        (·.handleEvent readable))
  | popped {fresh : Option (ConnId × Token)} (hph : l.phase = .popping)
      (hrequests : l.requests = []) : Moves pipe l (.popRequest fresh) { l with phase := .polling }
  | woken {fresh : Option (ConnId × Token)} {token : Token} {requests : List (Request P)}
      (hph : l.phase = .popping) (hrequests : l.requests = .wakeConnection token :: requests) :
      Moves pipe l (.popRequest fresh)
        ({ l with requests }.enter token .handlingWake (·.handleWake))
  | stopped {fresh : Option (ConnId × Token)} {requests : List (Request P)}
      (hph : l.phase = .popping) (hrequests : l.requests = .shutdown :: requests) :
      Moves pipe l (.popRequest fresh) { l with
        phase := .stopped
        requests
        slab := fun _ => none
        entries := fun id => (l.entries id).map fun e =>
          { e with conn := e.conn.close clientOps } }
  | refused {io : P} {requests : List (Request P)} (hph : l.phase = .popping)
      (hrequests : l.requests = .addConnection io :: requests) :
      Moves pipe l (.popRequest none) { l with requests }
  | bound {io : P} {requests : List (Request P)} {id : ConnId} {token : Token}
      (hph : l.phase = .popping) (hrequests : l.requests = .addConnection io :: requests)
      (hid : l.entries id = none) (htoken : l.slab token = none) :
      Moves pipe l (.popRequest (some (id, token))) { l with
        requests
        slab := Function.update l.slab token (some id)
        entries := Function.update l.entries id (some ⟨token, .new io .new⟩) }
  | left {w : List Tok} {a : ConnAction (RpcAction (Item Req))} {id : ConnId}
      {e : Entry P Req Resp} {conn : ClientConnection P Req Resp}
      (hat : l.AtConn pipe w a id e conn) (hph : conn.phase = .idle) :
      Moves pipe l (.conn w a) { l.setConn id e conn with phase := l.phase.next }
  | removed {w : List Tok} {a : ConnAction (RpcAction (Item Req))} {id : ConnId}
      {e : Entry P Req Resp} {conn : ClientConnection P Req Resp}
      (hat : l.AtConn pipe w a id e conn) (hph : conn.phase = .removed) :
      Moves pipe l (.conn w a) { l.setConn id e conn with
        phase := l.phase.next, slab := Function.update l.slab e.token none }
  | stayed {w : List Tok} {a : ConnAction (RpcAction (Item Req))} {id : ConnId}
      {e : Entry P Req Resp} {conn : ClientConnection P Req Resp}
      (hat : l.AtConn pipe w a id e conn) (hidle : conn.phase ≠ .idle)
      (hremoved : conn.phase ≠ .removed) : Moves pipe l (.conn w a) (l.setConn id e conn)
  | caller {id : ConnId} {a : RpcAction (Item Req)} {e : Entry P Req Resp}
      {conn : ClientConnection P Req Resp} (he : l.entries id = some e)
      (hmay : l.mayStep id a = true) (hstep : clientStep pipe e.conn ([], .other a) = some conn) :
      Moves pipe l (.caller id a)
        { l.setConn id e conn with owing := l.owing ++ owed conn id a }
  | pushedWake {id : ConnId} {call : CallId} {e : Entry P Req Resp} (he : l.entries id = some e)
      (howing : (id, call) ∈ l.owing)
      (hdone : callIs Call.inPush e.conn.driver.handler.calls call = false)
      (hroom : l.phase ≠ .stopped ∧ l.requests.length < EVENT_LOOP_INITIAL_CLIENTS) :
      Moves pipe l (.pushWake id call) { l with
        owing := l.owing.erase (id, call)
        requests := l.requests ++ [.wakeConnection e.token]
        ringing := l.ringing + 1 }
  | lostWake {id : ConnId} {call : CallId} {e : Entry P Req Resp} (he : l.entries id = some e)
      (howing : (id, call) ∈ l.owing)
      (hdone : callIs Call.inPush e.conn.driver.handler.calls call = false)
      (hroom : ¬ (l.phase ≠ .stopped ∧ l.requests.length < EVENT_LOOP_INITIAL_CLIENTS)) :
      Moves pipe l (.pushWake id call) { l with owing := l.owing.erase (id, call) }
  | pushedRequest {r : Request P}
      (hroom : l.phase ≠ .stopped ∧ l.requests.length < EVENT_LOOP_INITIAL_CLIENTS) :
      Moves pipe l (.pushRequest r)
        { l with requests := l.requests ++ [r], ringing := l.ringing + 1 }
  | lostRequest {r : Request P}
      (hroom : ¬ (l.phase ≠ .stopped ∧ l.requests.length < EVENT_LOOP_INITIAL_CLIENTS)) :
      Moves pipe l (.pushRequest r) l
  | rung (hringing : 0 < l.ringing) :
      Moves pipe l .ring { l with ringing := l.ringing - 1, waker := true }

theorem step_cases {pipe : PipeOps P} {l l' : EventLoop P Req Resp} {a : LoopAction P Req}
    (hs : l.step pipe a = some l') : l.Moves pipe a l' := by
  cases a with
  | poll es =>
      simp only [step] at hs
      split at hs <;> cases hs
      exact .polled ‹_›
  | nextEvent =>
      simp only [step] at hs
      split at hs <;> cases hs
      · exact .handled ‹_›
      · exact .event ‹_›
  | popRequest fresh =>
      simp only [step] at hs
      split at hs
      · cases hs
        exact .popped ‹_› ‹_›
      · cases hs
        exact .woken ‹_› ‹_›
      · cases hs
        exact .stopped ‹_› ‹_›
      · split at hs
        · cases hs
          exact .refused ‹_› ‹_›
        · split at hs
          · rename_i hfree
            cases hs
            rw [Bool.and_eq_true, Option.isNone_iff_eq_none, Option.isNone_iff_eq_none] at hfree
            exact .bound ‹_› ‹_› hfree.1 hfree.2
          · cases hs
      · cases hs
  | conn w a =>
      simp only [step] at hs
      split at hs
      · cases hs
      · rename_i id hcur
        split at hs
        · cases hs
        · rename_i e he
          split at hs
          · cases hs
          · rename_i hother
            split at hs
            · cases hs
            · rename_i conn hstep
              have hat : l.AtConn pipe w a id e conn := ⟨hcur, he, by simpa using hother, hstep⟩
              split at hs <;> cases hs
              · exact .left hat ‹_›
              · exact .removed hat ‹_›
              · exact .stayed hat ‹_› ‹_›
  | caller id a =>
      simp only [step] at hs
      split at hs
      · cases hs
      · split at hs
        · split at hs <;> cases hs
          exact .caller ‹_› ‹_› ‹_›
        · cases hs
  | pushWake id call =>
      simp only [step] at hs
      split at hs
      · cases hs
      · split at hs
        · rename_i howing
          split at hs <;> cases hs
          · exact .pushedWake ‹_› howing.1 howing.2 ‹_›
          · exact .lostWake ‹_› howing.1 howing.2 ‹_›
        · cases hs
  | pushRequest r =>
      simp only [step] at hs
      split at hs <;> cases hs
      · exact .pushedRequest ‹_›
      · exact .lostRequest ‹_›
  | ring =>
      simp only [step] at hs
      split at hs <;> cases hs
      exact .rung ‹_›

end EventLoop

/-! ## What a step does to a connection -/

/-- The loop will look at the queue again. -/
def Phase.beforeDrained : Phase → Bool
  | .recv | .process | .flush _ => true
  | _ => false

section Steps

variable {pipe : PipeOps P} {c c' : ClientConnection P Req Resp} {w : List Tok}

omit [Bincode Req] [Bincode Resp] in
theorem drop_not_live (s : ClientRpc (Item Req) (Item Resp)) :
    (clientOps.drop s : ClientRpc (Item Req) (Item Resp)).handler ≠ .live := by
  simp only [clientOps, ClientRpc.drop]
  split <;> simp_all

/-- A connection that is removed has dropped its handler. -/
theorem clientStep_removed {a : ConnAction (RpcAction (Item Req))}
    (h : clientStep pipe c (w, a) = some c')
    (hc : c.phase = .removed → c.driver.handler.handler ≠ .live) :
    c'.phase = .removed → c'.driver.handler.handler ≠ .live := by
  intro hph
  obtain ⟨⟨c₁, toks, w₁⟩, hstep, rfl⟩ := Option.map_eq_some_iff.mp h
  have hcons : c.phase = .removed → ∀ m, c.driver.handler.consume m = none :=
    fun h m => ClientRpc.consume_of_dropped (hc h) m
  have hprod : c.phase = .removed → c.driver.handler.produce = none :=
    fun h => ClientRpc.produce_of_dropped (hc h)
  cases step_handled hstep with
  | nothing hh _ _ hphase => rw [hh]; exact hc (hphase.mp hph)
  | other e h hops hh _ _ hphase =>
      rw [hh]; exact (ClientRpc.frozen_other (hc (hphase.mp hph)) hops).handler
  | consumed e m h hops _ _ _ hphase =>
      have : c.driver.handler.consume m = _ := hops
      rw [hcons (hphase.mp hph)] at this
      cases this
  | produced e m h hops _ _ _ hphase | drained e h hops _ _ _ hphase =>
      have : c.driver.handler.produce = _ := hops
      rw [hprod (hphase.mp hph)] at this
      cases this
  | dropped hh | rejected _ _ _ _ _ hh | panicked _ _ _ _ _ hh | lost _ _ _ _ hh
  | refused _ _ _ _ hh => rw [hh]; exact drop_not_live _

/-- A step of another thread keeps the phase; what it adds to the queue is
the request of a call that now owes a wake. -/
theorem clientStep_other {a : RpcAction (Item Req)} (id : ConnId)
    (h : clientStep pipe c ([], .other a) = some c') :
    c'.phase = c.phase ∧
      (c'.driver.handler.handler = .live → c.driver.handler.handler = .live) ∧
      (c'.driver.handler.queue ≠ [] →
        c.driver.handler.queue ≠ [] ∨ ∃ i, (id, i) ∈ EventLoop.owed c' id a) := by
  rw [clientStep_caller] at h
  obtain ⟨s, hs, rfl⟩ := Option.map_eq_some_iff.mp h
  refine ⟨rfl, fun hlive => ?_, fun hq => ?_⟩
  · by_contra hdead
    exact (ClientRpc.frozen_other hdead hs).handler hlive
  · cases ClientRpc.other_cases hs with
    | @accepted i => exact Or.inr ⟨i, by simp [EventLoop.owed, ClientRpc.setCall]⟩
    | drainedOne _ hqueue | drainedQueue _ hqueue => exact Or.inl (by simp [hqueue])
    | _ => exact Or.inl hq

end Steps

/-! ## The slab -/

namespace EventLoop

variable {l l' : EventLoop P Req Resp}

/-- The slab holds the connections that are not removed, each under its token. -/
structure Slabbed (l : EventLoop P Req Resp) : Prop where
  registered : ∀ t id, l.slab t = some id → ∃ e, l.entries id = some e ∧ e.token = t
  live : ∀ id e, l.entries id = some e → e.conn.driver.handler.handler = .live →
    l.slab e.token = some id ∧ e.conn.phase ≠ .removed
  current : ∀ id, l.phase.current = some id →
    ∃ e, l.entries id = some e ∧ l.slab e.token = some id
  stopped : l.phase = .stopped → ∀ t, l.slab t = none

omit [Bincode Req] [Bincode Resp] in
theorem slabbed_new : (new : EventLoop P Req Resp).Slabbed :=
  ⟨nofun, fun _ _ he => by simp [new] at he, nofun, nofun⟩

omit [Bincode Req] [Bincode Resp] in
theorem setConn_entries {id id' : ConnId} {e e' : Entry P Req Resp}
    {conn : ClientConnection P Req Resp} (h : (l.setConn id e conn).entries id' = some e') :
    (id' = id ∧ e' = { e with conn }) ∨ (id' ≠ id ∧ l.entries id' = some e') :=
  Slab.insert_cases h

omit [Bincode Req] [Bincode Resp] in
theorem setConn_mem {id id' : ConnId} {e e' : Entry P Req Resp}
    (conn : ClientConnection P Req Resp) (he : l.entries id = some e)
    (h : l.entries id' = some e') :
    ∃ e'', (l.setConn id e conn).entries id' = some e'' ∧ e''.token = e'.token := by
  by_cases hid : id' = id
  · subst hid
    rw [he] at h
    cases h
    exact ⟨{ e with conn }, by simp [setConn], rfl⟩
  · exact ⟨e', by simp [setConn, hid, h], rfl⟩

omit [Bincode Req] [Bincode Resp] in
theorem Slabbed.setConn (h : l.Slabbed) {id : ConnId} {e : Entry P Req Resp}
    (conn : ClientConnection P Req Resp) (he : l.entries id = some e)
    (hlive : conn.driver.handler.handler = .live →
      e.conn.driver.handler.handler = .live ∧ conn.phase ≠ .removed) :
    (l.setConn id e conn).Slabbed where
  registered t id' hslab := by
    obtain ⟨e', he', rfl⟩ := h.registered t id' hslab
    exact setConn_mem _ he he'
  live id' e' he' hlive' := by
    rcases setConn_entries he' with ⟨rfl, rfl⟩ | ⟨-, he'⟩
    · obtain ⟨hold, hph⟩ := hlive hlive'
      exact ⟨(h.live id' e he hold).1, hph⟩
    · exact h.live id' e' he' hlive'
  current id' hcur := by
    obtain ⟨e', he', hslab⟩ := h.current id' hcur
    obtain ⟨e'', he'', htoken⟩ := setConn_mem conn he he'
    exact ⟨e'', he'', by rwa [htoken]⟩
  stopped := h.stopped

omit [Bincode Req] [Bincode Resp] in
theorem Slabbed.setPhase (h : l.Slabbed) {ph : LoopPhase} (hstopped : ph ≠ .stopped)
    (hcur : ∀ id, ph.current = some id → ∃ e, l.entries id = some e ∧ l.slab e.token = some id) :
    { l with phase := ph }.Slabbed :=
  ⟨h.registered, h.live, hcur, (absurd · hstopped)⟩

omit [Bincode Req] [Bincode Resp] in
theorem Slabbed.leave (h : l.Slabbed) (ph : LoopPhase) (hstopped : ph ≠ .stopped)
    (hcur : ph.current = none) : { l with phase := ph }.Slabbed :=
  h.setPhase hstopped fun id hid => by rw [hcur] at hid; cases hid

omit [Bincode Req] [Bincode Resp] in
theorem Slabbed.congr (h : l.Slabbed) (hslab : l'.slab = l.slab)
    (hentries : l'.entries = l.entries) (hphase : l'.phase = l.phase) : l'.Slabbed where
  registered := by rw [hslab, hentries]; exact h.registered
  live := by rw [hslab, hentries]; exact h.live
  current := by rw [hslab, hentries, hphase]; exact h.current
  stopped := by rw [hslab, hphase]; exact h.stopped

omit [Bincode Req] [Bincode Resp] in
/-- The connection that the loop leaves goes from the slab with its handler. -/
theorem Slabbed.remove (h : l.Slabbed) {id : ConnId} {e : Entry P Req Resp} {ph : LoopPhase}
    (hslab : l.slab e.token = some id) (he : l.entries id = some e)
    (hdead : e.conn.driver.handler.handler ≠ .live)
    (hstopped : ph ≠ .stopped) (hcur : ph.current = none) :
    { l with phase := ph, slab := Function.update l.slab e.token none }.Slabbed where
  registered t id' hslab' := by
    obtain ⟨-, hslab'⟩ := Slab.of_remove hslab'
    exact h.registered t id' hslab'
  live id' e' he' hlive := by
    obtain ⟨hslab', hph⟩ := h.live id' e' he' hlive
    refine ⟨?_, hph⟩
    by_cases ht : e'.token = e.token
    · rw [ht, hslab] at hslab'
      cases hslab'
      rw [he] at he'
      cases he'
      exact absurd hlive hdead
    · simp [ht, hslab']
  current id' hcur' := by simp [hcur] at hcur'
  stopped hph := absurd hph hstopped

omit [Bincode Req] [Bincode Resp] in
/-- A token either stands for nothing or starts the handling of its connection. -/
theorem enter_cases (h : l.Slabbed) (token : Token) (phase : ConnId → LoopPhase)
    (start : ClientConnection P Req Resp → ClientConnection P Req Resp) :
    (l.slab token = none ∧ l.enter token phase start = l) ∨
    ∃ id e, l.slab token = some id ∧ l.entries id = some e ∧ e.token = token ∧
      l.enter token phase start = { l.setConn id e (start e.conn) with phase := phase id } := by
  unfold enter
  cases hslab : l.slab token with
  | none => exact Or.inl ⟨rfl, rfl⟩
  | some id =>
      obtain ⟨e, he, ht⟩ := h.registered token id hslab
      refine Or.inr ⟨id, e, rfl, he, ht, ?_⟩
      simp only [he]

/-- What `handle_event` and `handle_wake` do before their first loop. -/
structure Starts (start : ClientConnection P Req Resp → ClientConnection P Req Resp) : Prop where
  driver : ∀ c, (start c).driver = c.driver
  phase : ∀ c, (start c).phase.beforeDrained = true

omit [Bincode Req] [Bincode Resp] in
theorem starts_handleEvent (readable : Bool) :
    Starts (fun c : ClientConnection P Req Resp => c.handleEvent readable) :=
  ⟨fun _ => rfl, fun c => by cases readable <;> rfl⟩

omit [Bincode Req] [Bincode Resp] in
theorem starts_handleWake : Starts (fun c : ClientConnection P Req Resp => c.handleWake) :=
  ⟨fun _ => rfl, fun _ => rfl⟩

omit [Bincode Req] [Bincode Resp] in
theorem Slabbed.enter (h : l.Slabbed) {token : Token} {phase : ConnId → LoopPhase}
    {start : ClientConnection P Req Resp → ClientConnection P Req Resp}
    (hphase : ∀ id, (phase id).current = some id) (hstart : Starts start) :
    (l.enter token phase start).Slabbed := by
  rcases enter_cases h token phase start with ⟨-, heq⟩ | ⟨id, e, hslab, he, rfl, heq⟩ <;> rw [heq]
  · exact h
  · have hnotRemoved : (start e.conn).phase ≠ .removed := by
      intro hph
      have := hstart.phase e.conn
      rw [hph] at this
      cases this
    have hset : (l.setConn id e (start e.conn)).Slabbed :=
      h.setConn _ he fun hlive => ⟨by rwa [hstart.driver] at hlive, hnotRemoved⟩
    refine hset.setPhase (fun hph => ?_) fun id' hcur => ?_
    · have := hphase id
      rw [hph] at this
      cases this
    · rw [hphase id] at hcur
      cases hcur
      exact ⟨{ e with conn := start e.conn }, by simp [EventLoop.setConn], hslab⟩

theorem AtConn.slabbed {pipe : PipeOps P} {w : List Tok} {a : ConnAction (RpcAction (Item Req))}
    {id : ConnId} {e : Entry P Req Resp} {conn : ClientConnection P Req Resp}
    (hat : l.AtConn pipe w a id e conn) (h : l.Slabbed) :
    (l.setConn id e conn).Slabbed ∧ l.slab e.token = some id ∧
      (conn.phase = .removed → conn.driver.handler.handler ≠ .live) := by
  obtain ⟨e', he', hslab⟩ := h.current id hat.current
  obtain rfl := Option.some.inj (he'.symm.trans hat.entry)
  have hremoved := clientStep_removed hat.step
    fun hph hlive => (h.live id e' he' hlive).2 hph
  refine ⟨h.setConn conn he' fun hlive => ⟨?_, fun hph => hremoved hph hlive⟩, hslab, hremoved⟩
  by_contra hdead
  exact (clientStep_frozen hdead hat.step).handler hlive

theorem step_slabbed {pipe : PipeOps P} {a : LoopAction P Req} (h : l.Slabbed)
    (hs : l.step pipe a = some l') : l'.Slabbed := by
  cases step_cases hs with
  | refused | pushedWake | lostWake | pushedRequest | rung => exact h.congr rfl rfl rfl
  | lostRequest => exact h
  | @polled es => exact (h.leave (.events es) (by simp) rfl).congr rfl rfl rfl
  | handled => exact h.leave .popping (by simp) rfl
  | @event token readable es =>
      have hevents : ({ l with phase := .events es }).Slabbed := h.leave _ (by simp) rfl
      exact hevents.enter (fun _ => rfl) (starts_handleEvent readable)
  | popped => exact h.leave .polling (by simp) rfl
  | @woken _ token requests =>
      have hpopped : ({ l with requests }).Slabbed := h.congr rfl rfl rfl
      exact hpopped.enter (fun _ => rfl) starts_handleWake
  | stopped =>
      refine ⟨nofun, fun id e he hlive => ?_, nofun, fun _ _ => rfl⟩
      obtain ⟨e', -, rfl⟩ := Option.map_eq_some_iff.mp he
      exact absurd hlive (drop_not_live _)
  | @bound _ _ id token hph _ hid htoken =>
      refine ⟨fun t id' hslab => ?_, fun id' e' he' hlive => ?_, fun id' hcur => ?_, ?_⟩
      · rcases Slab.insert_cases hslab with ⟨rfl, rfl⟩ | ⟨-, hslab⟩
        · exact ⟨_, Function.update_self .., rfl⟩
        · obtain ⟨e', he', rfl⟩ := h.registered t id' hslab
          have hne : id' ≠ id := by rintro rfl; rw [hid] at he'; cases he'
          exact ⟨e', by simp [hne, he'], rfl⟩
      · rcases Slab.insert_cases he' with ⟨rfl, rfl⟩ | ⟨-, he'⟩
        · exact ⟨by simp, by simp [Connection.new]⟩
        · obtain ⟨hslab, hph'⟩ := h.live id' e' he' hlive
          refine ⟨?_, hph'⟩
          have ht : e'.token ≠ token := by
            intro ht
            rw [ht, htoken] at hslab
            cases hslab
          simp [ht, hslab]
      · simp [hph, LoopPhase.current] at hcur
      · simp [hph]
  | left hat =>
      obtain ⟨hidle, -, hrun⟩ := LoopPhase.next_of_current hat.current
      exact (hat.slabbed h).1.leave _ hrun hidle
  | @removed _ _ _ e conn hat hph =>
      obtain ⟨hidle, -, hrun⟩ := LoopPhase.next_of_current hat.current
      obtain ⟨hset, hslab, hremoved⟩ := hat.slabbed h
      exact hset.remove (e := { e with conn }) hslab (by simp [EventLoop.setConn]) (hremoved hph)
        hrun hidle
  | stayed hat => exact (hat.slabbed h).1
  | @caller id _ e conn he _ hstep =>
      obtain ⟨hph, hlive, -⟩ := clientStep_other id hstep
      have hset := h.setConn conn he fun hl =>
        ⟨hlive hl, by rw [hph]; exact (h.live id e he (hlive hl)).2⟩
      exact hset.congr rfl rfl rfl

end EventLoop

end EventLoop

end Audioipc

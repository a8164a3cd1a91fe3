import Mathlib.Logic.Function.Basic
import Audioipc.Driver
import Audioipc.Lts

/-!
# RPC clients and servers

`rpccore.rs`. A call puts its request and a `CompletionWriter` into the
request queue of its connection's `ClientHandler`; the handler moves the
writer to `in_flight` when it produces the request, and completes the first
writer there with each response it consumes. Requests carry no ids, so
everything rests on the order of the two queues and of the stream.

`ClientRpc` is what a `ClientHandler` and all calls made through its proxies
share. The completion of a call lives on the stack of its thread; a writer
is a pointer to it, and is modelled by the id of the call. The queue is
behind an `Arc` whose strong references are the handler's own and those that
`push` holds for a moment, so it can be a caller that drops it, with the
writers of other callers inside.

Each thread's steps are cut where another thread can notice: a `CallPhase`
is the place of a call in `Proxy::call`, a `HandlerPhase` that of the loop
thread in the drop of the handler. `Moves` says what these steps do,
`produce_cases` and `consume_cases` what the handler does.
-/

namespace Audioipc

abbrev CallId := Nat

/-- `RPC_CLIENT_INITIAL_PROXIES`, the capacity of the request queue. -/
def RPC_CLIENT_INITIAL_PROXIES : Nat := 32

/-- Where a call is. In `push` it has the reference to the queue from
`upgraded` to `pushed`, where `ok` is whether the queue had room, and drops the
queue together with the last reference (`draining`). Then it is in
`response.wait()`, or, as `push` returned `Err`, in the drop of the completion
(`failing`). -/
inductive CallPhase (β : Type) where
  | pushing
  | upgraded
  | pushed (ok : Bool)
  | draining (ok : Bool)
  | waiting
  | failing
  | returned (r : Option β)

/-- A call and its `Completion`. -/
structure Call (α β : Type) where
  request : α
  phase : CallPhase β
  item : Option β
  writer : Bool

/-- Where the loop thread is in the life of the handler. It drops `in_flight`,
then its reference to the queue (`dropping`), and the queue together with the
last reference to it (`draining`). -/
inductive HandlerPhase where
  | live
  | dropping
  | draining
  | dropped
deriving Repr, DecidableEq

/-- `proxies` are those alive, the weak references to the queue, and `holders`
the calls that hold a strong one. The last three are for the record: what the
queue has accepted, what the handler has produced, and the values writers were
set to. -/
structure ClientRpc (α β : Type) where
  handler : HandlerPhase
  proxies : Nat
  holders : List CallId
  queue : List (CallId × α)
  inFlight : List CallId
  calls : CallId → Option (Call α β)
  accepted : List (CallId × α)
  popped : List (CallId × α)
  completed : List (CallId × β)

/-- The steps of callers and owners of proxies, and those of the drop of the
handler. `call` enters `Proxy::call`: it makes the completion and its writer
and enters `push`, whose parts are `upgrade`, `push` (of the queue) and
`release`. `finish` is its return, once the writer is gone. `dropWriter`,
`dropQueue` and `drainQueue` are the loop thread's; `drain` and `drainQueue`
drop the next item of the queue, or finish dropping it. -/
inductive RpcAction (α : Type) where
  | cloneProxy
  | dropProxy
  | call (i : CallId) (request : α)
  | upgrade (i : CallId)
  | push (i : CallId)
  | release (i : CallId)
  | drain (i : CallId)
  | finish (i : CallId)
  | dropWriter
  | dropQueue
  | drainQueue

namespace ClientRpc

variable {α β : Type}

def new : ClientRpc α β :=
  ⟨.live, 1, [], [], [], fun _ => none, [], [], []⟩

def setCall (s : ClientRpc α β) (i : CallId) (c : Call α β) : ClientRpc α β :=
  { s with calls := Function.update s.calls i (some c) }

/-- `CompletionWriter::drop`. -/
def dropCompletionWriter (s : ClientRpc α β) (i : CallId) : ClientRpc α β :=
  { s with calls :=
      Function.update s.calls i ((s.calls i).map fun c => { c with writer := false }) }

/-- `Weak::upgrade` succeeds while there is a strong reference. -/
def alive (s : ClientRpc α β) : Bool :=
  s.handler == .live || s.handler == .dropping || !s.holders.isEmpty

/-- Where `push` returns to. -/
def afterPush (ok : Bool) : CallPhase β := if ok then .waiting else .failing

/-- The steps of other threads, and those of the drop of the handler. -/
def other (s : ClientRpc α β) : RpcAction α → Option (ClientRpc α β)
  | .cloneProxy => if 0 < s.proxies then some { s with proxies := s.proxies + 1 } else none
  | .dropProxy => if 0 < s.proxies then some { s with proxies := s.proxies - 1 } else none
  | .call i request =>
      match s.calls i with
      | none => if 0 < s.proxies then some (s.setCall i ⟨request, .pushing, none, true⟩) else none
      | some _ => none
  | .upgrade i =>
      match s.calls i with
      | some ⟨request, .pushing, item, writer⟩ =>
          if s.alive then
            some { s.setCall i ⟨request, .upgraded, item, writer⟩ with holders := i :: s.holders }
          else
            -- `push` returns `Err` and drops its argument
            some (s.setCall i ⟨request, .failing, item, false⟩)
      | _ => none
  | .push i =>
      match s.calls i with
      | some ⟨request, .upgraded, item, writer⟩ =>
          if s.queue.length < RPC_CLIENT_INITIAL_PROXIES then
            some { s.setCall i ⟨request, .pushed true, item, writer⟩ with
              queue := s.queue ++ [(i, request)], accepted := s.accepted ++ [(i, request)] }
          else
            some (s.setCall i ⟨request, .pushed false, item, false⟩)
      | _ => none
  | .release i =>
      match s.calls i with
      | some ⟨request, .pushed ok, item, writer⟩ =>
          let s' := { s with holders := s.holders.erase i }
          let phase := if s'.alive then afterPush ok else .draining ok
          some (s'.setCall i ⟨request, phase, item, writer⟩)
      | _ => none
  | .drain i =>
      match s.calls i with
      | some ⟨request, .draining ok, item, writer⟩ =>
          match s.queue with
          | [] => some (s.setCall i ⟨request, afterPush ok, item, writer⟩)
          | (j, _) :: queue => some { s.dropCompletionWriter j with queue }
      | _ => none
  | .finish i =>
      match s.calls i with
      | some ⟨request, .waiting, item, false⟩ =>
          some (s.setCall i ⟨request, .returned item, none, false⟩)
      | some ⟨request, .failing, item, false⟩ =>
          some (s.setCall i ⟨request, .returned none, item, false⟩)
      | _ => none
  | .dropWriter =>
      match s.handler, s.inFlight with
      | .dropping, i :: inFlight => some { s.dropCompletionWriter i with inFlight }
      | _, _ => none
  | .dropQueue =>
      match s.handler, s.inFlight with
      | .dropping, [] =>
          some { s with handler := if s.holders.isEmpty then .draining else .dropped }
      | _, _ => none
  | .drainQueue =>
      match s.handler, s.queue with
      | .draining, [] => some { s with handler := .dropped }
      | .draining, (i, _) :: queue => some { s.dropCompletionWriter i with queue }
      | _, _ => none

/-- `ClientHandler::consume`, with `CompletionWriter::set`. -/
def consume (s : ClientRpc α β) (response : β) :
    Option (Except String (Except IoError Unit) × ClientRpc α β) :=
  match s.handler, s.inFlight with
  | .live, [] => some (return .error (.other "request/response mismatch"), s)
  | .live, i :: inFlight =>
      match s.calls i with
      | some ⟨request, phase, _, true⟩ =>
          some (return .ok (), { s.setCall i ⟨request, phase, some response, false⟩ with
            inFlight, completed := s.completed ++ [(i, response)] })
      | _ =>
          some (throw "assertion failed: (*self.ptr).writer.load(Ordering::Relaxed)",
            { s with inFlight })
  | _, _ => none

/-- `ClientHandler::produce`. -/
def produce (s : ClientRpc α β) : Option (Except IoError (Option α) × ClientRpc α β) :=
  match s.handler with
  | .live =>
      if s.proxies = 0 then some (throw .connectionAborted, s)
      else
        match s.queue with
        | [] => some (return none, s)
        | (i, request) :: queue =>
            some (return some request, { s with
              queue, inFlight := s.inFlight ++ [i], popped := s.popped ++ [(i, request)] })
  | _ => none

/-- The loop thread starts to drop the handler. -/
def drop (s : ClientRpc α β) : ClientRpc α β :=
  { s with handler := if s.handler = .live then .dropping else s.handler }

variable {s s' : ClientRpc α β}

inductive Moves (s : ClientRpc α β) : RpcAction α → ClientRpc α β → Prop
  | cloneProxy (hproxies : 0 < s.proxies) : Moves s .cloneProxy { s with proxies := s.proxies + 1 }
  | dropProxy (hproxies : 0 < s.proxies) : Moves s .dropProxy { s with proxies := s.proxies - 1 }
  | call {i : CallId} {request : α} (hnone : s.calls i = none) (hproxies : 0 < s.proxies) :
      Moves s (.call i request) (s.setCall i ⟨request, .pushing, none, true⟩)
  | upgraded {i : CallId} {request : α} {item : Option β} {writer : Bool}
      (hc : s.calls i = some ⟨request, .pushing, item, writer⟩) (halive : s.alive = true) :
      Moves s (.upgrade i)
        { s.setCall i ⟨request, .upgraded, item, writer⟩ with holders := i :: s.holders }
  | gone {i : CallId} {request : α} {item : Option β} {writer : Bool}
      (hc : s.calls i = some ⟨request, .pushing, item, writer⟩) (halive : ¬ s.alive = true) :
      Moves s (.upgrade i) (s.setCall i ⟨request, .failing, item, false⟩)
  | accepted {i : CallId} {request : α} {item : Option β} {writer : Bool}
      (hc : s.calls i = some ⟨request, .upgraded, item, writer⟩)
      (hroom : s.queue.length < RPC_CLIENT_INITIAL_PROXIES) :
      Moves s (.push i) { s.setCall i ⟨request, .pushed true, item, writer⟩ with
        queue := s.queue ++ [(i, request)], accepted := s.accepted ++ [(i, request)] }
  | full {i : CallId} {request : α} {item : Option β} {writer : Bool}
      (hc : s.calls i = some ⟨request, .upgraded, item, writer⟩)
      (hroom : ¬ s.queue.length < RPC_CLIENT_INITIAL_PROXIES) :
      Moves s (.push i) (s.setCall i ⟨request, .pushed false, item, false⟩)
  | released {i : CallId} {request : α} {ok : Bool} {item : Option β} {writer : Bool}
      (hc : s.calls i = some ⟨request, .pushed ok, item, writer⟩) :
      Moves s (.release i) ({ s with holders := s.holders.erase i }.setCall i
        ⟨request, if { s with holders := s.holders.erase i }.alive then afterPush ok
          else .draining ok, item, writer⟩)
  | drained {i : CallId} {request : α} {ok : Bool} {item : Option β} {writer : Bool}
      (hc : s.calls i = some ⟨request, .draining ok, item, writer⟩) (hqueue : s.queue = []) :
      Moves s (.drain i) (s.setCall i ⟨request, afterPush ok, item, writer⟩)
  | drainedOne {i j : CallId} {request request' : α} {ok : Bool} {item : Option β} {writer : Bool}
      {queue : List (CallId × α)} (hc : s.calls i = some ⟨request, .draining ok, item, writer⟩)
      (hqueue : s.queue = (j, request') :: queue) :
      Moves s (.drain i) { s.dropCompletionWriter j with queue }
  | finished {i : CallId} {request : α} {item : Option β}
      (hc : s.calls i = some ⟨request, .waiting, item, false⟩) :
      Moves s (.finish i) (s.setCall i ⟨request, .returned item, none, false⟩)
  | failed {i : CallId} {request : α} {item : Option β}
      (hc : s.calls i = some ⟨request, .failing, item, false⟩) :
      Moves s (.finish i) (s.setCall i ⟨request, .returned none, item, false⟩)
  | droppedWriter {i : CallId} {inFlight : List CallId} (hhandler : s.handler = .dropping)
      (hinFlight : s.inFlight = i :: inFlight) :
      Moves s .dropWriter { s.dropCompletionWriter i with inFlight }
  | droppedQueue (hhandler : s.handler = .dropping) (hinFlight : s.inFlight = []) :
      Moves s .dropQueue
        { s with handler := if s.holders.isEmpty then .draining else .dropped }
  | emptied (hhandler : s.handler = .draining) (hqueue : s.queue = []) :
      Moves s .drainQueue { s with handler := .dropped }
  | drainedQueue {i : CallId} {request : α} {queue : List (CallId × α)}
      (hhandler : s.handler = .draining) (hqueue : s.queue = (i, request) :: queue) :
      Moves s .drainQueue { s.dropCompletionWriter i with queue }

theorem other_cases {a : RpcAction α} (h : s.other a = some s') : s.Moves a s' := by
  cases a with
  | cloneProxy =>
      simp only [other] at h
      split at h <;> cases h
      exact .cloneProxy ‹_›
  | dropProxy =>
      simp only [other] at h
      split at h <;> cases h
      exact .dropProxy ‹_›
  | call i request =>
      simp only [other] at h
      split at h
      · split at h <;> cases h
        exact .call ‹_› ‹_›
      · cases h
  | upgrade i =>
      simp only [other] at h
      split at h
      · split at h <;> cases h
        · exact .upgraded ‹_› ‹_›
        · exact .gone ‹_› ‹_›
      · cases h
  | push i =>
      simp only [other] at h
      split at h
      · split at h <;> cases h
        · exact .accepted ‹_› ‹_›
        · exact .full ‹_› ‹_›
      · cases h
  | release i =>
      simp only [other] at h
      split at h <;> cases h
      exact .released ‹_›
  | drain i =>
      simp only [other] at h
      split at h
      · split at h <;> cases h
        · exact .drained ‹_› ‹_›
        · exact .drainedOne ‹_› ‹_›
      · cases h
  | finish i =>
      simp only [other] at h
      split at h <;> cases h
      · exact .finished ‹_›
      · exact .failed ‹_›
  | dropWriter =>
      simp only [other] at h
      split at h <;> cases h
      exact .droppedWriter ‹_› ‹_›
  | dropQueue =>
      simp only [other] at h
      split at h <;> cases h
      exact .droppedQueue ‹_› ‹_›
  | drainQueue =>
      simp only [other] at h
      split at h <;> cases h
      · exact .emptied ‹_› ‹_›
      · exact .drainedQueue ‹_› ‹_›

/-- `produce` moves the first request on, or finds none or no proxies. -/
theorem produce_cases {r : Except IoError (Option α)} (h : s.produce = some (r, s')) :
    s.handler = .live ∧ ((∃ i request queue, r = .ok (some request) ∧
        s.queue = (i, request) :: queue ∧ s' = { s with
          queue, inFlight := s.inFlight ++ [i], popped := s.popped ++ [(i, request)] }) ∨
      (r = .ok none ∧ s.queue = [] ∧ s' = s) ∨ (∃ e, r = .error e ∧ s' = s)) := by
  unfold produce at h
  split at h
  · rename_i hlive
    refine ⟨hlive, ?_⟩
    split at h
    · cases h
      exact Or.inr (Or.inr ⟨_, rfl, rfl⟩)
    · split at h <;> rename_i hq <;> cases h
      · exact Or.inr (Or.inl ⟨rfl, hq, rfl⟩)
      · exact Or.inl ⟨_, _, _, rfl, hq, rfl⟩
  · cases h

/-- `consume` finds no writer, or sets the first one and drops it, or trips
over a writer that was dropped before. -/
theorem consume_cases {response : β} {r : Except String (Except IoError Unit)}
    (h : s.consume response = some (r, s')) :
    s.handler = .live ∧ ((∃ e, s.inFlight = [] ∧ r = .ok (.error e) ∧ s' = s) ∨
      ∃ i inFlight, s.inFlight = i :: inFlight ∧
        ((∃ request phase item, s.calls i = some ⟨request, phase, item, true⟩ ∧
            r = .ok (.ok ()) ∧ s' = { s.setCall i ⟨request, phase, some response, false⟩ with
              inFlight, completed := s.completed ++ [(i, response)] }) ∨
          ((∀ request phase item, s.calls i ≠ some ⟨request, phase, item, true⟩) ∧
            ∃ msg, r = .error msg ∧ s' = { s with inFlight }))) := by
  unfold consume at h
  split at h
  · rename_i hlive hf
    cases h
    exact ⟨hlive, Or.inl ⟨_, hf, rfl, rfl⟩⟩
  · rename_i i inFlight hlive hf
    refine ⟨hlive, Or.inr ⟨i, inFlight, hf, ?_⟩⟩
    split at h <;> cases h
    · rename_i hc
      exact Or.inl ⟨_, _, _, hc, rfl, rfl⟩
    · rename_i hc
      exact Or.inr ⟨hc, _, rfl, rfl⟩
  · cases h

end ClientRpc

/-! ## The two handlers -/

section Handlers

variable {Req Resp : Type} [AssociateHandleForMessage Req] [AssociateHandleForMessage Resp]

/-- `impl Handler for ClientHandler`. -/
def clientOps : HandlerOps Resp Req (ClientRpc (Item Req) (Item Resp)) (RpcAction (Item Req)) where
  consume _ s response := s.consume response
  produce _ s := s.produce
  other a s := s.other a
  drop s := s.drop

/-- `ServerHandler`, with what it has processed and whether it has been
dropped, for the record. -/
structure ServerHandler (S Req Resp : Type) [AssociateHandleForMessage Req]
    [AssociateHandleForMessage Resp] where
  server : S
  inFlight : List (Item Resp)
  processed : List (Item Req × Item Resp)
  dropped : Bool

def ServerHandler.new {S Req Resp : Type} [AssociateHandleForMessage Req]
    [AssociateHandleForMessage Resp] (server : S) : ServerHandler S Req Resp :=
  ⟨server, [], [], false⟩

/-- `impl Handler for ServerHandler`, for any `Server::process`; `E` is the
outcome of what it calls. -/
def serverOps {S E : Type} (process : E → S → Item Req → Except String (Item Resp) × S) :
    HandlerOps Req Resp (ServerHandler S Req Resp) E where
  consume e h message :=
    match h.dropped, process e h.server message with
    | true, _ => none
    | false, (.error msg, server) => some (throw msg, { h with server })
    | false, (.ok response, server) =>
        some (return .ok (), { h with
          server, inFlight := h.inFlight ++ [response],
          processed := h.processed ++ [(message, response)] })
  produce _ h :=
    match h.dropped, h.inFlight with
    | true, _ => none
    | false, response :: inFlight => some (return some response, { h with inFlight })
    | false, [] => some (return none, h)
  other _ _ := none
  drop h := { h with inFlight := [], dropped := true }

end Handlers

end Audioipc

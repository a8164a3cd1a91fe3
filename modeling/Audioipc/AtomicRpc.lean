import Audioipc.Readiness
import Audioipc.Requests
import Audioipc.Simulation

/-!
# What a remote server is to its callers

Callers know nothing of queues, bytes and loop threads. To them the server
is an object that executes their requests one at a time, each at one moment
(`AtomicServer`). A call that returns `Ok` returns what its execution gave,
and was executed between its start and its return (`execute`). A call that
returns `Err` says less: its request may have been executed, may be executed
after the return (`executeLate`), or never.

`rpc_refines_atomic`: a client and a server connection are such an object.
Every history of calls and returns of theirs, with any interleaving of
callers, loop threads and the kernel, and whatever fails, is one of the
object. The moment of execution is the one at which `Server::process` runs.
-/

namespace Audioipc

/-! ## The object -/

/-- A call with what its execution gave and what it returned. -/
structure AtomicCall (α β : Type) where
  request : α
  executed : Option β
  returned : Option (Option β)

structure AtomicServer (S α β : Type) where
  server : S
  calls : CallId → Option (AtomicCall α β)

/-- A call returns `Ok` when it responds, and `Err` when it fails. -/
inductive AtomicAction (E α : Type) where
  | invoke (i : CallId) (request : α)
  | execute (e : E) (i : CallId)
  | executeLate (e : E) (i : CallId)
  | respond (i : CallId)
  | fail (i : CallId)

/-- What callers see. -/
inductive RpcEvent (α β : Type) where
  | called (i : CallId) (request : α)
  | returned (i : CallId) (r : Option β)
deriving Repr, DecidableEq

namespace AtomicServer

variable {S E α β : Type}

def new (server : S) : AtomicServer S α β := ⟨server, fun _ => none⟩

def setCall (s : AtomicServer S α β) (i : CallId) (c : AtomicCall α β) : AtomicServer S α β :=
  { s with calls := Function.update s.calls i (some c) }

@[simp] theorem setCall_self (s : AtomicServer S α β) (i : CallId) (c : AtomicCall α β) :
    (s.setCall i c).calls i = some c := Function.update_self ..

theorem setCall_of_ne (s : AtomicServer S α β) {i j : CallId} (c : AtomicCall α β) (h : j ≠ i) :
    (s.setCall i c).calls j = s.calls j := Function.update_of_ne h ..

def execute (process : E → S → α → Except String β × S) (s : AtomicServer S α β) (e : E)
    (i : CallId) (request : α) (returned : Option (Option β)) : Option (AtomicServer S α β) :=
  match process e s.server request with
  | (.ok response, server) =>
      some ({ s with server }.setCall i ⟨request, some response, returned⟩)
  | (.error _, _) => none

def step (process : E → S → α → Except String β × S) (s : AtomicServer S α β) :
    AtomicAction E α → Option (AtomicServer S α β)
  | .invoke i request =>
      match s.calls i with
      | none => some (s.setCall i ⟨request, none, none⟩)
      | some _ => none
  | .execute e i =>
      match s.calls i with
      | some ⟨request, none, none⟩ => s.execute process e i request none
      | _ => none
  -- of a call that has failed
  | .executeLate e i =>
      match s.calls i with
      | some ⟨request, none, some none⟩ => s.execute process e i request (some none)
      | _ => none
  | .respond i =>
      match s.calls i with
      | some ⟨request, some response, none⟩ =>
          some (s.setCall i ⟨request, some response, some (some response)⟩)
      | _ => none
  | .fail i =>
      match s.calls i with
      | some ⟨request, executed, none⟩ => some (s.setCall i ⟨request, executed, some none⟩)
      | _ => none

def events (_ : AtomicServer S α β) (a : AtomicAction E α) (s' : AtomicServer S α β) :
    List (RpcEvent α β) :=
  match a with
  | .invoke i request => [.called i request]
  | .execute .. | .executeLate .. => []
  | .respond i | .fail i => [.returned i (((s'.calls i).bind AtomicCall.returned).bind id)]

end AtomicServer

/-! ## What callers see of the client -/

def Call.seen {α β : Type} (c : Call α β) : Option (Option β) :=
  match c.phase with
  | .returned r => some r
  | _ => none

theorem Call.phase_of_seen {α β : Type} {c : Call α β} {r : Option β} (h : c.seen = some r) :
    c.phase = .returned r := by
  unfold Call.seen at h
  split at h
  · rename_i hphase
    rw [hphase, Option.some.inj h]
  · cases h

def Call.view {α β : Type} (c : Call α β) : α × Option (Option β) := (c.request, c.seen)

namespace ClientRpc

variable {α β : Type} {s s' : ClientRpc α β}

structure Hidden (s s' : ClientRpc α β) : Prop where
  view : ∀ i, (s'.calls i).map Call.view = (s.calls i).map Call.view
  accepted : s'.accepted = s.accepted ∨ ∃ x, s'.accepted = s.accepted ++ [x]

theorem Hidden.of_same (hcalls : s'.calls = s.calls) (haccepted : s'.accepted = s.accepted) :
    Hidden s s' := ⟨fun i => by rw [hcalls], Or.inl haccepted⟩

theorem Hidden.of_call {i : CallId} {c c' : Call α β} (hc : s.calls i = some c)
    (hcalls : s'.calls = Function.update s.calls i (some c')) (hview : c'.view = c.view)
    (haccepted : s'.accepted = s.accepted ∨ ∃ x, s'.accepted = s.accepted ++ [x]) :
    Hidden s s' := by
  refine ⟨fun j => ?_, haccepted⟩
  rw [hcalls]
  by_cases hj : j = i
  · subst hj
    rw [Function.update_self, hc]
    exact congrArg some hview
  · rw [Function.update_of_ne hj]

theorem Hidden.of_dropWriter {i : CallId} (hcalls : s'.calls = (s.dropCompletionWriter i).calls)
    (haccepted : s'.accepted = s.accepted) : Hidden s s' := by
  refine ⟨fun j => ?_, Or.inl haccepted⟩
  rw [hcalls]
  by_cases hj : j = i
  · subst hj
    simp only [dropCompletionWriter, Function.update_self, Option.map_map]
    rfl
  · simp [dropCompletionWriter, hj]

theorem Hidden.then_drop (h : Hidden s s') : Hidden s s'.drop := ⟨h.view, h.accepted⟩

theorem hidden_consume {response : β} {r : Except String (Except IoError Unit)}
    (hs : s.consume response = some (r, s')) : Hidden s s' := by
  rcases (consume_cases hs).2 with ⟨-, -, -, rfl⟩ | ⟨i, inFlight, -, h⟩
  · exact .of_same rfl rfl
  · rcases h with ⟨request, phase, item, hc, -, rfl⟩ | ⟨-, msg, -, rfl⟩
    · exact .of_call hc rfl rfl (Or.inl rfl)
    · exact .of_same rfl rfl

theorem hidden_produce {r : Except IoError (Option α)} (hs : s.produce = some (r, s')) :
    Hidden s s' := by
  rcases (produce_cases hs).2 with ⟨i, request, queue, -, -, rfl⟩ | ⟨-, -, rfl⟩ | ⟨e, -, rfl⟩ <;>
    exact .of_same rfl rfl

/-- What callers see of the steps of other threads. -/
inductive Shows (s s' : ClientRpc α β) : RpcAction α → Prop
  | called (i : CallId) (request : α) (hnone : s.calls i = none)
      (hs' : s' = s.setCall i ⟨request, .pushing, none, true⟩) : Shows s s' (.call i request)
  | returned (i : CallId) (c c' : Call α β) (r : Option β) (hc : s.calls i = some c)
      (hopen : c.seen = none) (hrequest : c'.request = c.request) (hphase : c'.phase = .returned r)
      (hs' : s' = s.setCall i c') : Shows s s' (.finish i)
  | hidden (a : RpcAction α) (hcall : ∀ i m, a ≠ .call i m) (hfinish : ∀ i, a ≠ .finish i)
      (h : Hidden s s') : Shows s s' a

theorem other_shows {a : RpcAction α} (hs : s.other a = some s') : Shows s s' a := by
  cases other_cases hs with
  | cloneProxy | dropProxy => exact .hidden _ (by simp) (by simp) (.of_same rfl rfl)
  | call hnone => exact .called _ _ hnone rfl
  | upgraded hc | gone hc | full hc =>
      exact .hidden _ (by simp) (by simp) (.of_call hc rfl rfl (Or.inl rfl))
  | accepted hc =>
      exact .hidden _ (by simp) (by simp) (.of_call hc rfl rfl (Or.inr ⟨_, rfl⟩))
  | @released i request ok item writer hc =>
      refine .hidden _ (by simp) (by simp) (.of_call hc rfl ?_ (Or.inl rfl))
      generalize ClientRpc.alive _ = alive
      cases alive <;> cases ok <;> rfl
  | @drained i request ok item writer hc =>
      refine .hidden _ (by simp) (by simp) (.of_call hc rfl ?_ (Or.inl rfl))
      cases ok <;> rfl
  | drainedOne hc hqueue => exact .hidden _ (by simp) (by simp) (.of_dropWriter rfl rfl)
  | finished hc | failed hc => exact .returned _ _ ⟨_, .returned _, _, _⟩ _ hc rfl rfl rfl rfl
  | droppedWriter => exact .hidden _ (by simp) (by simp) (.of_dropWriter rfl rfl)
  | droppedQueue | emptied => exact .hidden _ (by simp) (by simp) (.of_same rfl rfl)
  | drainedQueue => exact .hidden _ (by simp) (by simp) (.of_dropWriter rfl rfl)

end ClientRpc

/-! ## What the server has answered -/

section Answered

variable {α β : Type} {accepted : List (CallId × α)} {processed : List (α × β)} {i : CallId}
  {r : β}

/-- The server has processed the request of this call. Requests are
processed in the order in which they were accepted. -/
def Answered (accepted : List (CallId × α)) (processed : List (α × β)) (i : CallId) (r : β) :
    Prop :=
  ∃ n : Nat, (accepted[n]?).map Prod.fst = some i ∧ (processed[n]?).map Prod.snd = some r

theorem Answered.mem (h : Answered accepted processed i r) : i ∈ accepted.map Prod.fst := by
  obtain ⟨n, hn, -⟩ := h
  obtain ⟨x, hx, rfl⟩ := Option.map_eq_some_iff.mp hn
  exact List.mem_map_of_mem (List.mem_of_getElem? hx)

theorem answered_accepted (x : CallId × α) (hlen : processed.length ≤ accepted.length) :
    Answered (accepted ++ [x]) processed i r ↔ Answered accepted processed i r := by
  refine exists_congr fun n => and_congr_left fun hr => ?_
  obtain ⟨y, hy, -⟩ := Option.map_eq_some_iff.mp hr
  obtain ⟨hlt, -⟩ := List.getElem?_eq_some_iff.mp hy
  rw [List.getElem?_append_left (by omega)]

theorem answered_processed {j : CallId} {m : α} {r' : β}
    (hnext : accepted[processed.length]? = some (j, m)) :
    Answered accepted (processed ++ [(m, r')]) i r ↔
      Answered accepted processed i r ∨ (i = j ∧ r = r') := by
  constructor
  · rintro ⟨n, hi, hr⟩
    obtain ⟨y, hy, rfl⟩ := Option.map_eq_some_iff.mp hr
    rcases List.getElem?_eq_some_iff.mp hy with ⟨hlt, hy'⟩
    rw [List.length_append, List.length_singleton] at hlt
    by_cases hn : n < processed.length
    · rw [List.getElem?_append_left hn] at hy
      exact Or.inl ⟨n, hi, by rw [hy]; rfl⟩
    · obtain rfl : n = processed.length := by omega
      rw [hnext] at hi
      rw [List.getElem?_append_right (Nat.le_refl _), Nat.sub_self] at hy
      cases hi
      cases hy
      exact Or.inr ⟨rfl, rfl⟩
  · rintro (⟨n, hi, hr⟩ | ⟨rfl, rfl⟩)
    · obtain ⟨y, hy, rfl⟩ := Option.map_eq_some_iff.mp hr
      obtain ⟨hlt, -⟩ := List.getElem?_eq_some_iff.mp hy
      exact ⟨n, hi, by rw [List.getElem?_append_left hlt, hy]; rfl⟩
    · exact ⟨processed.length, by rw [hnext]; rfl, by simp⟩

theorem not_answered {m : α} (hnext : accepted[processed.length]? = some (i, m))
    (honce : (accepted.map Prod.fst).Nodup) : ¬ Answered accepted processed i r := by
  rintro ⟨n, hi, hr⟩
  obtain ⟨y, hy, -⟩ := Option.map_eq_some_iff.mp hr
  obtain ⟨hlt, -⟩ := List.getElem?_eq_some_iff.mp hy
  have hn : (accepted.map Prod.fst)[n]? = some i := by rw [List.getElem?_map, hi]
  have hlast : (accepted.map Prod.fst)[processed.length]? = some i := by
    rw [List.getElem?_map, hnext]
    rfl
  have hbound := (List.getElem?_eq_some_iff.mp hn).1
  have := (List.getElem?_inj hbound honce).mp (hn.trans hlast.symm)
  omega

end Answered

/-! ## The refinement -/

section Refines

variable {S E Req Resp : Type} [Bincode Req] [AssociateHandleForMessage Req]
  [Bincode Resp] [AssociateHandleForMessage Resp]

def rpcEvents (_ : RpcLink Unit S Req Resp) (a : LinkAction (RpcAction (Item Req)) E)
    (k' : RpcLink Unit S Req Resp) : List (RpcEvent (Item Req) (Item Resp)) :=
  match a with
  | .client (.other (.call i request)) => [.called i request]
  | .client (.other (.finish i)) =>
      [.returned i (((k'.client.driver.handler.calls i).bind Call.seen).bind id)]
  | _ => []

/-- The object has the call as its caller sees it. -/
inductive SameCall {α β : Type} (answered : β → Prop) :
    Option (Call α β) → Option (AtomicCall α β) → Prop
  | absent (h : ∀ r, ¬ answered r) : SameCall answered none none
  | present (c : Call α β) (executed : Option β) (h : ∀ r, executed = some r ↔ answered r) :
      SameCall answered (some c) (some ⟨c.request, executed, c.seen⟩)

theorem SameCall.of_none {α β : Type} {p : β → Prop} {a : Option (AtomicCall α β)}
    (h : SameCall p (none : Option (Call α β)) a) : a = none ∧ ∀ r, ¬ p r := by
  cases h with
  | absent h => exact ⟨rfl, h⟩

theorem SameCall.of_some {α β : Type} {p : β → Prop} {c : Call α β}
    {a : Option (AtomicCall α β)} (h : SameCall p (some c) a) :
    ∃ executed, a = some ⟨c.request, executed, c.seen⟩ ∧ ∀ r, executed = some r ↔ p r := by
  cases h with
  | present c executed h => exact ⟨executed, rfl, h⟩

structure Refines (k : RpcLink Unit S Req Resp) (t : AtomicServer S (Item Req) (Item Resp)) :
    Prop where
  rpc : RpcInv k
  calls : ∀ i, SameCall
    (Answered k.client.driver.handler.accepted k.server.driver.handler.processed i)
    (k.client.driver.handler.calls i) (t.calls i)
  server : k.server.driver.handler.dropped = false → t.server = k.server.driver.handler.server

omit [Bincode Req] [Bincode Resp] in
theorem refines_start [Bincode Req] [Bincode Resp] (server : S) :
    Refines (rpcStart server : RpcLink Unit S Req Resp) (.new server) where
  rpc := rpcInv_start server
  calls i := .absent fun r h => by cases h.mem
  server _ := rfl

variable {k k' : RpcLink Unit S Req Resp} {t : AtomicServer S (Item Req) (Item Resp)}
  {process : E → S → Item Req → Except String (Item Resp) × S}

omit [Bincode Req] [Bincode Resp] in
theorem sameCall_hidden {s s' : ClientRpc (Item Req) (Item Resp)} {i : CallId}
    {a : Option (AtomicCall (Item Req) (Item Resp))} {p p' : Item Resp → Prop}
    (hview : (s'.calls i).map Call.view = (s.calls i).map Call.view) (hp : ∀ r, p' r ↔ p r)
    (h : SameCall p (s.calls i) a) : SameCall p' (s'.calls i) a := by
  generalize s.calls i = c at h hview
  generalize s'.calls i = c' at hview
  cases h with
  | absent h =>
      obtain rfl : c' = none := Option.map_eq_none_iff.mp hview
      exact .absent fun r hr => h r ((hp r).mp hr)
  | present c executed h =>
      obtain ⟨c', rfl, heq⟩ := Option.map_eq_some_iff.mp hview
      have hrequest : c'.request = c.request := congrArg Prod.fst heq
      have hseen : c'.seen = c.seen := congrArg Prod.snd heq
      rw [← hrequest, ← hseen]
      exact .present c' executed fun r => (h r).trans (hp r).symm

/-- The part of a step that the other end, and callers, do not see. -/
theorem Refines.hidden (h : Refines k t) (hrpc : RpcInv k')
    (hhidden : k.client.driver.handler.Hidden k'.client.driver.handler)
    (hprocessed : k'.server.driver.handler.processed = k.server.driver.handler.processed)
    (hserver : k'.server.driver.handler.dropped = false →
      k.server.driver.handler.dropped = false ∧
        k'.server.driver.handler.server = k.server.driver.handler.server) : Refines k' t := by
  refine ⟨hrpc, fun i => sameCall_hidden (hhidden.view i) (fun r => ?_) (h.calls i),
    fun hd => (h.server (hserver hd).1).trans (hserver hd).2.symm⟩
  have hlen : k.server.driver.handler.processed.length ≤
      k.client.driver.handler.accepted.length := by
    simpa using h.rpc.agreement.order.length_le
  rw [hprocessed]
  rcases hhidden.accepted with heq | ⟨x, heq⟩
  · rw [heq]
  · rw [heq, answered_accepted x hlen]

omit [Bincode Req] [Bincode Resp] in
/-- The rule for what the client's loop thread does to its handler: it
consumes or produces, and may drop it. -/
theorem client_own [Bincode Req] [Bincode Resp] {a : ConnAction (RpcAction (Item Req))}
    {R : ClientRpc (Item Req) (Item Resp) → ClientRpc (Item Req) (Item Resp) → Prop}
    (hrefl : ∀ h, R h h) (hconsume : ∀ h m r h', h.consume m = some (r, h') → R h h')
    (hproduce : ∀ h r h', h.produce = some (r, h') → R h h')
    (hdrop : ∀ h h', R h h' → R h h'.drop) (hother : a.isOther = false)
    (h : rpcStep process k (.client a) = some k') :
    R k.client.driver.handler k'.client.driver.handler := by
  obtain ⟨⟨c, toks, w⟩, hstep, rfl⟩ := Option.map_eq_some_iff.mp h
  have hnone : ∀ {e handler}, (clientOps.during a).other e k.client.driver.handler ≠
      some handler := by
    intro e handler hs
    cases a with
    | other => cases hother
    | _ => cases hs
  have hconsumed : ∀ {e m r handler}, (clientOps.during a).consume e k.client.driver.handler m =
      some (r, handler) → R k.client.driver.handler handler := by
    intro e m r handler hs
    cases a with
    | processItem e => exact hconsume _ _ _ _ hs
    | _ => cases hs
  rw [← step_during] at hstep
  cases step_handled hstep with
  | nothing hhandler => exact hhandler ▸ hrefl _
  | dropped hhandler => exact hhandler ▸ hdrop _ _ (hrefl _)
  | other e handler hops hhandler => exact absurd hops hnone
  | consumed e m handler hops hhandler => exact hhandler ▸ hconsumed hops
  | rejected e m err handler hops hhandler | panicked e m msg handler hops hhandler =>
      exact hhandler ▸ hdrop _ _ (hconsumed hops)
  | produced e m handler hops hhandler | drained e handler hops hhandler =>
      exact hhandler ▸ hproduce _ _ _ hops
  | lost e m handler hops hhandler | refused e err handler hops hhandler =>
      exact hhandler ▸ hdrop _ _ (hproduce _ _ _ hops)

/-- What callers see of a step of the client's loop thread: nothing. -/
theorem client_hidden {a : ConnAction (RpcAction (Item Req))}
    (hother : a.isOther = false) (h : rpcStep process k (.client a) = some k') :
    k.client.driver.handler.Hidden k'.client.driver.handler :=
  client_own (R := ClientRpc.Hidden) (fun _ => .of_same rfl rfl)
    (fun _ _ _ _ hs => ClientRpc.hidden_consume hs) (fun _ _ _ hs => ClientRpc.hidden_produce hs)
    (fun _ _ h => h.then_drop) hother h

omit [Bincode Req] [Bincode Resp] in
/-- A server that has not been dropped changes when it processes a request. -/
theorem server_kept [Bincode Req] [Bincode Resp] {a : ConnAction E}
    (h : rpcStep process k (.server a) = some k')
    (hd : k'.server.driver.handler.dropped = false) :
    k.server.driver.handler.dropped = false ∧
      (k'.server.driver.handler.processed = k.server.driver.handler.processed →
        k'.server.driver.handler.server = k.server.driver.handler.server) := by
  obtain ⟨⟨c, toks, w⟩, hstep, rfl⟩ := Option.map_eq_some_iff.mp h
  dsimp only at hd ⊢
  have hproduce : ∀ {e r handler},
      (serverOps process).produce e k.server.driver.handler = some (r, handler) →
      c.driver.handler = handler → k.server.driver.handler.dropped = false := by
    intro e r handler hs _
    simp only [serverOps] at hs
    split at hs <;> first | assumption | cases hs
  cases step_handled hstep with
  | nothing hhandler => exact ⟨hhandler ▸ hd, fun _ => by rw [hhandler]⟩
  | dropped hhandler =>
      rw [hhandler] at hd
      cases hd
  | other e handler hops => cases hops
  | consumed e m handler hops hhandler =>
      subst hhandler
      rcases serverOps_consume hops with ⟨resp, -, -, hprocessed⟩ | ⟨msg, -, hr, -⟩
      · refine ⟨?_, fun hsame => ?_⟩
        · simp only [serverOps] at hops
          split at hops <;> first | assumption | cases hops
        · rw [hprocessed] at hsame
          simp at hsame
      · cases hr
  | rejected e m err handler hops hhandler | panicked e m msg handler hops hhandler
  | lost e m handler hops hhandler | refused e err handler hops hhandler =>
      rw [hhandler] at hd
      cases hd
  | produced e m handler hops hhandler | drained e handler hops hhandler =>
      exact ⟨hproduce hops hhandler, fun _ => hhandler ▸ (serverOps_produce process hops).1⟩

variable [LawfulBincode Req] [LawfulBincode Resp]

theorem server_matches {a : ConnAction E} (h : Refines k t)
    (hstep : rpcStep process k (.server a) = some k') :
    Lts.Matches (AtomicServer.step process) AtomicServer.events (Refines k') t
      (rpcEvents k (.server a) k') := by
  have hrpc := rpcInv_step h.rpc hstep
  have hkept := server_kept hstep
  have hclient : k'.client = k.client := by
    obtain ⟨⟨c, toks, w⟩, -, rfl⟩ := Option.map_eq_some_iff.mp hstep
    rfl
  have hsame : k.client.driver.handler.Hidden k'.client.driver.handler :=
    hclient ▸ .of_same rfl rfl
  cases rpcStep_serves h.rpc hstep with
  | nothing hserver hprocessed | panicked _ _ _ _ hprocessed =>
      exact Lts.matches_none (h.hidden hrpc hsame hprocessed
        fun hd => ⟨(hkept hd).1, (hkept hd).2 hprocessed⟩)
  | served e i m r he hnext hprocess hprocessed =>
      obtain rfl : a = .processItem e := by cases he; rfl
      have hserver : t.server = k.server.driver.handler.server := by
        obtain ⟨⟨c, toks, w⟩, hconn, -⟩ := Option.map_eq_some_iff.mp hstep
        exact h.server (h.rpc.serverLive (Connection.step_up hconn rfl))
      have hanswered : ∀ j r', Answered k'.client.driver.handler.accepted
          k'.server.driver.handler.processed j r' ↔
          Answered k.client.driver.handler.accepted k.server.driver.handler.processed j r' ∨
            (j = i ∧ r' = r) := by
        intro j r'
        rw [hclient, hprocessed]
        exact answered_processed hnext
      have hfresh := fun r' => not_answered (r := r') hnext h.rpc.client.order.once
      obtain ⟨c, hc, rfl, -⟩ :=
        h.rpc.client.order.accepted i m (List.mem_of_getElem? hnext)
      -- the call is there, and has not been executed
      have hcall : t.calls i = some ⟨c.request, none, c.seen⟩ := by
        obtain ⟨executed, hi, hexecuted⟩ := (hc ▸ h.calls i).of_some
        cases executed with
        | none => exact hi
        | some r' => exact absurd ((hexecuted r').mp rfl) (hfresh r')
      let t' := { t with server := k'.server.driver.handler.server }.setCall i
        ⟨c.request, some r, c.seen⟩
      have hexecute : t.execute process e i c.request c.seen = some t' := by
        simp only [AtomicServer.execute, hserver, hprocess]
        rfl
      -- before the call returns, or after it has failed
      have hmatches : Refines k' t' → Lts.Matches (AtomicServer.step process)
          AtomicServer.events (Refines k') t [] := by
        intro hrefines
        cases hseen : c.seen with
        | none =>
            rw [hseen] at hcall hexecute
            have hstep : t.step process (.execute e i) = some t' := by
              simp only [AtomicServer.step, hcall, hexecute]
            exact Lts.matches_one hstep hrefines
        | some returned =>
            cases returned with
            | none =>
                rw [hseen] at hcall hexecute
                have hstep : t.step process (.executeLate e i) = some t' := by
                  simp only [AtomicServer.step, hcall, hexecute]
                exact Lts.matches_one hstep hrefines
            | some resp =>
                obtain ⟨n, hn, hresp⟩ :=
                  h.rpc.agreement.result i c resp hc (Call.phase_of_seen hseen)
                exact absurd ⟨n, by rw [hn]; rfl, by rw [hresp]; rfl⟩ (hfresh resp)
      refine hmatches ⟨hrpc, fun j => ?_, fun _ => rfl⟩
      rw [hclient]
      by_cases hj : j = i
      · subst hj
        rw [hc, AtomicServer.setCall_self]
        refine .present c (some r) fun r' => ?_
        rw [← hclient, hanswered j r']
        simp [hfresh r', eq_comm]
      · rw [AtomicServer.setCall_of_ne _ _ hj]
        refine sameCall_hidden rfl (fun r' => ?_) (h.calls j)
        have := hanswered j r'
        rw [hclient] at this
        simpa [hj] using this

/-- What a step of a caller, or of the drop of the handler, is of the object. -/
theorem caller_matches {a : RpcAction (Item Req)} (h : Refines k t)
    (hstep : rpcStep process k (.client (.other a)) = some k') :
    Lts.Matches (AtomicServer.step process) AtomicServer.events (Refines k') t
      (rpcEvents k (.client (.other a) : LinkAction _ E) k') := by
  have hrpc := rpcInv_step h.rpc hstep
  obtain ⟨hops, hserver⟩ : k.client.driver.handler.other a = some k'.client.driver.handler ∧
      k'.server = k.server := by
    obtain ⟨⟨c, toks, w⟩, hconn, rfl⟩ := Option.map_eq_some_iff.mp hstep
    rw [Connection.step_other] at hconn
    obtain ⟨handler, hops, heq⟩ := Option.map_eq_some_iff.mp hconn
    cases heq
    exact ⟨hops, rfl⟩
  -- a call of the object that changes as the caller sees its own change
  have hset : ∀ {i c a}, SameCall (Answered k.client.driver.handler.accepted
        k.server.driver.handler.processed i) (some c) (some a) →
      k'.client.driver.handler = k.client.driver.handler.setCall i c →
      Refines k' (t.setCall i a) := by
    intro i c a hsame hcall
    refine ⟨hrpc, fun j => ?_, fun hd => hserver ▸ h.server (hserver ▸ hd)⟩
    rw [hserver, hcall]
    by_cases hj : j = i
    · subst hj
      simpa [ClientRpc.setCall] using hsame
    · rw [AtomicServer.setCall_of_ne _ _ hj]
      simp only [ClientRpc.setCall, Function.update_of_ne hj]
      exact h.calls j
  cases ClientRpc.other_shows hops with
  | hidden _ hcall hfinish hhidden =>
      have hevents : rpcEvents k (.client (.other a) : LinkAction _ E) = fun _ => [] := by
        cases a with
        | call i m => exact absurd rfl (hcall i m)
        | finish i => exact absurd rfl (hfinish i)
        | _ => rfl
      rw [hevents]
      exact Lts.matches_none (h.hidden hrpc hhidden (by rw [hserver])
        fun hd => ⟨hserver ▸ hd, by rw [hserver]⟩)
  | called i m hnone hs' =>
      obtain ⟨hi, hanswered⟩ := (hnone ▸ h.calls i).of_none
      have hinvoke : t.step process (.invoke i m) = some (t.setCall i ⟨m, none, none⟩) := by
        simp only [AtomicServer.step, hi]
      refine Lts.matches_one hinvoke (hset (.present ⟨m, .pushing, none, true⟩ none ?_) hs')
      exact fun r => by simpa using hanswered r
  | returned i c c' r hc hopen hrequest hphase hs' =>
      obtain ⟨executed, hi, hexecuted⟩ := (hc ▸ h.calls i).of_some
      rw [hopen] at hi
      have hseen : c'.seen = some r := by simp [Call.seen, hphase]
      have hcalls : k'.client.driver.handler.calls i = some c' := by simp [hs', ClientRpc.setCall]
      have hrefines : Refines k' (t.setCall i ⟨c.request, executed, some r⟩) := by
        refine hset (c := c') ?_ hs'
        rw [← hrequest, ← hseen]
        exact .present c' executed hexecuted
      have hevents : ∀ b : AtomicAction E (Item Req), b = .respond i ∨ b = .fail i →
          AtomicServer.events t b (t.setCall i ⟨c.request, executed, some r⟩) =
            rpcEvents k (.client (.other (.finish i)) : LinkAction _ E) k' := by
        rintro b (rfl | rfl) <;> simp [AtomicServer.events, rpcEvents, hcalls, hseen]
      cases r with
      | none =>
          have hfail : t.step process (.fail i) =
              some (t.setCall i ⟨c.request, executed, some none⟩) := by
            simp only [AtomicServer.step, hi]
          exact hevents _ (Or.inr rfl) ▸ Lts.matches_one hfail hrefines
      | some response =>
          -- what is returned is what the server has answered
          obtain ⟨n, hn, hr⟩ := hrpc.agreement.result i c' response hcalls hphase
          obtain rfl : executed = some response := by
            refine (hexecuted response).mpr ⟨n, ?_, ?_⟩
            · have haccepted : k'.client.driver.handler.accepted =
                  k.client.driver.handler.accepted := by rw [hs']; rfl
              rw [← haccepted, hn]
              rfl
            · rw [← hserver, hr]
              rfl
          have hrespond : t.step process (.respond i) =
              some (t.setCall i ⟨c.request, some response, some (some response)⟩) := by
            simp only [AtomicServer.step, hi]
          exact hevents _ (Or.inl rfl) ▸ Lts.matches_one hrespond hrefines

theorem rpc_simulates (process : E → S → Item Req → Except String (Item Resp) × S) :
    Lts.Simulates (rpcStep process) rpcEvents (AtomicServer.step process) AtomicServer.events
      Refines := by
  intro k t a k' h hstep
  cases a with
  | server a => exact server_matches h hstep
  | client a =>
      cases hother : a.isOther with
      | true =>
          cases a with
          | other a => exact caller_matches h hstep
          | _ => cases hother
      | false =>
          have hevents : rpcEvents k (.client a : LinkAction _ E) k' = [] := by
            cases a with
            | other => cases hother
            | _ => rfl
          have hserver : k'.server = k.server := by
            obtain ⟨⟨c, toks, w⟩, -, rfl⟩ := Option.map_eq_some_iff.mp hstep
            rfl
          rw [hevents]
          exact Lts.matches_none (h.hidden (rpcInv_step h.rpc hstep) (client_hidden hother hstep)
            (by rw [hserver]) fun hd => ⟨hserver ▸ hd, by rw [hserver]⟩)

/-- What callers see of a client and a server connection is what they could
see of a server that executes their requests one at a time. -/
theorem rpc_refines_atomic (process : E → S → Item Req → Except String (Item Resp) × S)
    (server : S) {as : List (LinkAction (RpcAction (Item Req)) E)} {k : RpcLink Unit S Req Resp}
    (hrun : Lts.runs (rpcStep process) (rpcStart server) as = some k) :
    ∃ bs t, Lts.runs (AtomicServer.step process) (.new server) bs = some t ∧
      Lts.history (AtomicServer.step process) AtomicServer.events (.new server) bs =
        Lts.history (rpcStep process) rpcEvents (rpcStart server) as ∧
      (k.server.driver.handler.dropped = false → t.server = k.server.driver.handler.server) := by
  obtain ⟨bs, t, hruns, hhistory, h⟩ := (rpc_simulates process).history (refines_start server) hrun
  exact ⟨bs, t, hruns, hhistory, h.server⟩

/-- A call that returns `Ok`, one that gives up after its request has been
sent, which the server executes nevertheless, and one that comes too late. -/
def lateScript : List (LinkAction (RpcAction (Item Bool)) Unit) :=
  [.client (.other (.call 0 .bare)), .client (.other (.upgrade 0)),
   .client (.other (.push 0)), .client (.other (.release 0)), .client .wake,
   .client (.flushItem .cloneProxy), .client (.flushItem .cloneProxy),
   .client (.sendMsg (.ok 13)), .client (.finish true),
   .server (.event true), .server (.recvMsg (.ok 13)), .server (.processItem ()),
   .server (.processItem ()), .server (.recvMsg (.error .wouldBlock)), .server (.flushItem ()),
   .server (.flushItem ()), .server (.sendMsg (.ok 13)), .server (.finish true),
   .client (.event true), .client (.recvMsg (.ok 13)), .client (.processItem .cloneProxy),
   .client (.other (.finish 0)), .client (.processItem .cloneProxy),
   .client (.recvMsg (.error .wouldBlock)), .client (.flushItem .cloneProxy),
   .client (.finish true),
   .client (.other (.call 1 .bare)), .client (.other (.upgrade 1)),
   .client (.other (.push 1)), .client (.other (.release 1)), .client .wake,
   .client (.flushItem .cloneProxy), .client (.flushItem .cloneProxy),
   .client (.sendMsg (.ok 13)), .client (.finish true),
   .client .shutdown, .client (.other .dropWriter), .client (.other (.finish 1)),
   .client (.other (.call 2 .bare)), .client (.other .dropQueue),
   .client (.other (.upgrade 2)), .client (.other (.finish 2)),
   .server (.event true), .server (.recvMsg (.ok 13)), .server (.processItem ())]

theorem rpc_refines_atomic_run : ∃ bs t,
    Lts.runs (AtomicServer.step fun (_ : Unit) (n : Nat) m => (.ok m, n + 1)) (.new 0) bs =
      some t ∧
    (Lts.history (AtomicServer.step fun (_ : Unit) (n : Nat) m => (.ok m, n + 1))
        AtomicServer.events (.new 0) bs).map (fun
          | .called i _ => (i, none)
          | .returned i r => (i, some (r.map Item.body))) =
      [(0, none), (0, some (some false)), (1, none), (1, some none), (2, none), (2, some none)] ∧
    t.server = 2 := by
  let process : Unit → Nat → Item Bool → Except String (Item Bool) × Nat :=
    fun _ n m => (.ok m, n + 1)
  have hrun : (Lts.runs (rpcStep process) (rpcStart 0) lateScript).map
      (fun k : RpcLink Unit Nat Bool Bool =>
        (k.server.driver.handler.dropped, k.server.driver.handler.server)) = some (false, 2) := by
    decide +kernel
  obtain ⟨k, hk, heq⟩ := Option.map_eq_some_iff.mp hrun
  obtain ⟨bs, t, hruns, hhistory, hserver⟩ := rpc_refines_atomic process 0 hk
  refine ⟨bs, t, hruns, ?_, (hserver (congrArg Prod.fst heq)).trans (congrArg Prod.snd heq)⟩
  rw [hhistory]
  decide +kernel

end Refines

/-! ## What the server has been through -/

section Serving

variable {S E α β : Type} {process : E → S → α → Except String β × S} {s t : S}
  {processed : List (α × β)}

/-- The server has got from `s` to `t` by processing these requests. -/
inductive Serving (process : E → S → α → Except String β × S) (s : S) : List (α × β) → S → Prop
  | start : Serving process s [] s
  | next {processed : List (α × β)} {t u : S} {m : α} {r : β} (e : E)
      (h : Serving process s processed t) (hprocess : process e t m = (.ok r, u)) :
      Serving process s (processed ++ [(m, r)]) u

theorem Serving.turn (h : Serving process s processed t) {n : Nat} {m : α} {r : β}
    (hn : processed[n]? = some (m, r)) :
    ∃ e u u', Serving process s (processed.take n) u ∧ process e u m = (.ok r, u') ∧
      Serving process s (processed.take (n + 1)) u' := by
  induction h with
  | start => cases hn
  | @next processed t u m' r' e h hprocess ih =>
      by_cases hlt : n < processed.length
      · rw [List.getElem?_append_left hlt] at hn
        rw [List.take_append_of_le_length (Nat.le_of_lt hlt), List.take_append_of_le_length hlt]
        exact ih hn
      · have hlen := (List.getElem?_eq_some_iff.mp hn).1
        rw [List.length_append, List.length_singleton] at hlen
        obtain rfl : n = processed.length := by omega
        rw [List.getElem?_append_right (Nat.le_refl _), Nat.sub_self] at hn
        cases hn
        refine ⟨e, t, u, ?_, hprocess, ?_⟩
        · rw [List.take_left]
          exact h
        · rw [List.take_of_length_le (by simp)]
          exact .next e h hprocess

end Serving

section Run

variable {S E Req Resp : Type} [Bincode Req] [AssociateHandleForMessage Req]
  [Bincode Resp] [AssociateHandleForMessage Resp] [LawfulBincode Req] [LawfulBincode Resp]
  {process : E → S → Item Req → Except String (Item Resp) × S} {k : RpcLink Unit S Req Resp}

/-- The server of a link has processed what it has processed. -/
theorem rpc_serving {server : S} {as : List (LinkAction (RpcAction (Item Req)) E)}
    (hrun : Lts.runs (rpcStep process) (rpcStart server) as = some k) :
    RpcInv k ∧ ∃ t, Serving process server k.server.driver.handler.processed t ∧
      (k.server.driver.handler.dropped = false → t = k.server.driver.handler.server) := by
  have hstep : ∀ (k : RpcLink Unit S Req Resp) a k',
      (RpcInv k ∧ ∃ t, Serving process server k.server.driver.handler.processed t ∧
        (k.server.driver.handler.dropped = false → t = k.server.driver.handler.server)) →
      rpcStep process k a = some k' →
      (RpcInv k' ∧ ∃ t, Serving process server k'.server.driver.handler.processed t ∧
        (k'.server.driver.handler.dropped = false → t = k'.server.driver.handler.server)) := by
    rintro k a k' ⟨hk, t, hserving, ht⟩ hstep
    refine ⟨rpcInv_step hk hstep, ?_⟩
    cases a with
    | client a =>
        obtain ⟨⟨c, toks, w⟩, -, rfl⟩ := Option.map_eq_some_iff.mp hstep
        exact ⟨t, hserving, ht⟩
    | server a =>
        have hkept := server_kept hstep
        cases rpcStep_serves hk hstep with
        | nothing hserver hprocessed | panicked _ _ _ _ hprocessed =>
            exact ⟨t, hprocessed ▸ hserving, fun hd =>
              (ht (hkept hd).1).trans ((hkept hd).2 hprocessed).symm⟩
        | served e i m r he hnext hprocess hprocessed =>
            obtain rfl : a = .processItem e := by cases he; rfl
            obtain ⟨⟨c, toks, w⟩, hconn, -⟩ := Option.map_eq_some_iff.mp hstep
            obtain rfl := ht (hk.serverLive (Connection.step_up hconn rfl))
            exact ⟨_, hprocessed ▸ .next e hserving hprocess, fun _ => rfl⟩
  exact Lts.runs_invariant hstep ⟨rpcInv_start server, server, .start, fun _ => rfl⟩ hrun

/-- A call that returns `Ok` returns what the server made of its request when
it was the request's turn. -/
theorem rpc_turn {server : S} {as : List (LinkAction (RpcAction (Item Req)) E)}
    (hrun : Lts.runs (rpcStep process) (rpcStart server) as = some k) {i : CallId}
    {call : Call (Item Req) (Item Resp)} {r : Item Resp}
    (hcall : k.client.driver.handler.calls i = some call)
    (hphase : call.phase = .returned (some r)) :
    ∃ (n : Nat) (e : E) (u u' : S), k.client.driver.handler.accepted[n]? = some (i, call.request) ∧
      Serving process server (k.server.driver.handler.processed.take n) u ∧
      process e u call.request = (.ok r, u') ∧
      Serving process server (k.server.driver.handler.processed.take (n + 1)) u' := by
  obtain ⟨hk, t, hserving, -⟩ := rpc_serving hrun
  obtain ⟨n, haccepted, hprocessed⟩ := hk.agreement.result i call r hcall hphase
  obtain ⟨e, u, u', hbefore, hprocess, hafter⟩ := hserving.turn hprocessed
  exact ⟨n, e, u, u', haccepted, hbefore, hprocess, hafter⟩

end Run

end Audioipc

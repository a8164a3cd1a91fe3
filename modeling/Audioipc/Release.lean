import Mathlib.Algebra.Order.BigOperators.Group.List
import Mathlib.Algebra.Order.Group.Nat
import Audioipc.Liveness
import Audioipc.Teardown

/-!
# Every call is released

Once the handler is being dropped each step of a call or of that drop brings
down what is left to do (`toGo`), and where no step is left all calls have
returned.

`calls_released` reads this, and what `Ownership` and `Results` say, off any
run of any connection with a client handler, whatever its pipe and its peer
do and for whatever reason it is removed.
-/

namespace Audioipc

section Calls

variable {α β : Type}

/-! ## Every call goes on -/

/-- The steps a call has left, and the wake that it will owe. -/
def CallPhase.left {β : Type} : CallPhase β → Nat
  | .pushing => 8
  | .upgraded => 7
  | .pushed _ => 5
  | .draining _ => 3
  | .waiting | .failing => 1
  | .returned _ => 0

def HandlerPhase.left : HandlerPhase → Nat
  | .live => 3
  | .dropping => 2
  | .draining => 1
  | .dropped => 0

def callLeft (calls : CallId → Option (Call α β)) (i : CallId) : Nat :=
  match calls i with
  | none => 0
  | some c => c.phase.left

section

variable {calls : CallId → Option (Call α β)} {ids : List CallId} {i : CallId}
  {c c' : Call α β}

theorem callLeft_update_le (hc : calls i = some c) (hle : c'.phase.left ≤ c.phase.left)
    (j : CallId) : callLeft (Function.update calls i (some c')) j ≤ callLeft calls j := by
  by_cases hij : j = i
  · subst hij
    simpa [callLeft, hc] using hle
  · simp [callLeft, hij]

/-- A call that goes on has less left, and so have all together. -/
theorem sum_callLeft_update (hc : calls i = some c) (hle : c'.phase.left ≤ c.phase.left)
    (hi : i ∈ ids) : (ids.map (callLeft (Function.update calls i (some c')))).sum +
      (c.phase.left - c'.phase.left) ≤ (ids.map (callLeft calls)).sum := by
  induction ids with
  | nil => cases hi
  | cons j ids ih =>
      have htail : (ids.map (callLeft (Function.update calls i (some c')))).sum ≤
          (ids.map (callLeft calls)).sum :=
        List.sum_le_sum fun j _ => callLeft_update_le hc hle j
      rw [List.map_cons, List.sum_cons, List.map_cons, List.sum_cons]
      by_cases hij : j = i
      · subst hij
        simp only [callLeft, Function.update_self, hc]
        omega
      · have hhead := callLeft_update_le hc hle j
        have := ih ((List.mem_cons.mp hi).resolve_left (Ne.symm hij))
        omega

theorem callLeft_dropWriter (s : ClientRpc α β) (i : CallId) :
    callLeft (s.dropCompletionWriter i).calls = callLeft s.calls := by
  funext j
  by_cases hij : j = i
  · subst hij
    simp only [callLeft, ClientRpc.dropCompletionWriter, Function.update_self]
    cases s.calls j <;> rfl
  · simp [callLeft, ClientRpc.dropCompletionWriter, hij]

/-- All calls are among these. -/
def Covers (ids : List CallId) (calls : CallId → Option (Call α β)) : Prop :=
  ∀ i, calls i ≠ none → i ∈ ids

theorem Covers.update (hids : Covers ids calls) (hc : calls i = some c) :
    Covers ids (Function.update calls i (some c')) := by
  intro j hj
  by_cases hij : j = i
  · exact hij ▸ hids i (by rw [hc]; exact Option.some_ne_none _)
  · exact hids j (by rwa [Function.update_of_ne hij] at hj)

end

namespace ClientRpc

variable {s s' : ClientRpc α β} {ids : List CallId}

/-- What the calls in `ids`, the drop of the handler and the proxies have left. -/
def toGo (s : ClientRpc α β) (ids : List CallId) : Nat :=
  2 * (ids.map (callLeft s.calls)).sum + s.queue.length + s.inFlight.length + s.handler.left +
    s.proxies

/-- A thread begins something. -/
def begins : RpcAction α → Bool
  | .cloneProxy | .call .. => true
  | _ => false

/-- A step that a call takes, or the loop thread in the drop of the handler. -/
def goesOn : RpcAction α → Bool
  | .cloneProxy | .dropProxy | .call .. => false
  | _ => true

theorem begins_of_goesOn {a : RpcAction α} (ha : goesOn a = true) : begins a = false := by
  cases a with
  | cloneProxy | call => cases ha
  | _ => rfl

theorem toGo_setCall {i : CallId} {c c' : Call α β} (hids : Covers ids s.calls)
    (hc : s.calls i = some c) (hless : c'.phase.left < c.phase.left)
    (hcalls : s'.calls = Function.update s.calls i (some c'))
    (hqueue : s'.queue.length ≤ s.queue.length + 1) (hinFlight : s'.inFlight = s.inFlight)
    (hhandler : s'.handler = s.handler) (hproxies : s'.proxies = s.proxies) :
    s'.toGo ids < s.toGo ids := by
  have hi : i ∈ ids := hids i (by rw [hc]; exact Option.some_ne_none _)
  have hsum := sum_callLeft_update hc (Nat.le_of_lt hless) hi
  simp only [toGo, hcalls, hinFlight, hhandler, hproxies]
  omega

theorem toGo_other (hids : Covers ids s.calls) {a : RpcAction α} (ha : begins a = false)
    (hs : s.other a = some s') : s'.toGo ids < s.toGo ids := by
  cases other_cases hs with
  | cloneProxy | call => cases ha
  | dropProxy hproxies =>
      simp only [toGo]
      omega
  | upgraded hc | gone hc | full hc | finished hc | failed hc =>
      exact toGo_setCall hids hc (by simp [CallPhase.left]) rfl (Nat.le_succ _) rfl rfl rfl
  | accepted hc =>
      refine toGo_setCall hids hc (by simp [CallPhase.left]) rfl ?_ rfl rfl rfl
      exact Nat.le_of_eq List.length_append
  | @released i request ok item writer hc =>
      refine toGo_setCall hids hc ?_ rfl (Nat.le_succ _) rfl rfl rfl
      cases ok <;> split <;> simp [CallPhase.left, afterPush]
  | @drained i request ok item writer hc =>
      refine toGo_setCall hids hc ?_ rfl (Nat.le_succ _) rfl rfl rfl
      cases ok <;> simp [CallPhase.left, afterPush]
  | drainedOne hc hqueue | drainedQueue hc hqueue =>
      simp only [toGo, callLeft_dropWriter, hqueue, List.length_cons]
      simp only [dropCompletionWriter]
      omega
  | droppedWriter hhandler hinFlight =>
      simp only [toGo, callLeft_dropWriter, hinFlight, List.length_cons]
      simp only [dropCompletionWriter]
      omega
  | droppedQueue hhandler =>
      simp only [toGo, hhandler]
      split <;> simp only [HandlerPhase.left] <;> omega
  | emptied hhandler =>
      simp only [toGo, hhandler, HandlerPhase.left]
      omega

theorem covers_other (hids : Covers ids s.calls) {a : RpcAction α} (ha : begins a = false)
    (hs : s.other a = some s') : Covers ids s'.calls := by
  have hdrop : ∀ i, Covers ids (s.dropCompletionWriter i).calls := by
    intro i j hj
    by_cases hij : j = i
    · subst hij
      refine hids j fun hnone => hj ?_
      simp [dropCompletionWriter, hnone]
    · exact hids j (by simpa [dropCompletionWriter, hij] using hj)
  cases other_cases hs with
  | cloneProxy | call => cases ha
  | dropProxy | droppedQueue | emptied => exact hids
  | upgraded hc | gone hc | accepted hc | full hc | released hc | drained hc | finished hc
  | failed hc => exact hids.update hc
  | drainedOne | droppedWriter | drainedQueue => exact hdrop _

/-- There are finitely many calls. -/
def Finite (s : ClientRpc α β) : Prop := ∃ ids, Covers ids s.calls

theorem Finite.other (h : s.Finite) {a : RpcAction α} (hs : s.other a = some s') : s'.Finite := by
  obtain ⟨ids, hids⟩ := h
  cases a with
  | cloneProxy =>
      cases other_cases hs
      exact ⟨ids, hids⟩
  | call i =>
      cases other_cases hs
      refine ⟨i :: ids, fun j hj => ?_⟩
      by_cases hij : j = i
      · exact hij ▸ List.mem_cons_self ..
      · exact List.mem_cons_of_mem _ (hids j (by simpa [setCall, hij] using hj))
  | _ => exact ⟨ids, covers_other hids rfl hs⟩

theorem Finite.drop (h : s.Finite) : s.drop.Finite := h

theorem Finite.consume (h : s.Finite) {response : β} {r : Except String (Except IoError Unit)}
    (hs : s.consume response = some (r, s')) : s'.Finite := by
  obtain ⟨ids, hids⟩ := h
  obtain ⟨-, ⟨e, -, -, rfl⟩ | ⟨i, rest, -, ⟨_, _, _, hc, -, rfl⟩ | ⟨-, msg, -, rfl⟩⟩⟩ :=
    consume_cases hs
  · exact ⟨ids, hids⟩
  · exact ⟨ids, hids.update hc⟩
  · exact ⟨ids, hids⟩

theorem Finite.produce (h : s.Finite) {r : Except IoError (Option α)}
    (hs : s.produce = some (r, s')) : s'.Finite := by
  obtain ⟨-, ⟨i, request, rest, -, -, rfl⟩ | ⟨-, -, rfl⟩ | ⟨e, -, rfl⟩⟩ := produce_cases hs <;>
    exact h

/-- Some call goes on, or the drop of the handler. -/
def GoesOn (s : ClientRpc α β) : Prop := ∃ a s', goesOn a = true ∧ s.other a = some s'

theorem goesOn_of {a : RpcAction α} (ha : goesOn a = true) (hs : (s.other a).isSome = true) :
    s.GoesOn := by
  obtain ⟨s', hs'⟩ := Option.isSome_iff_exists.mp hs
  exact ⟨a, s', ha, hs'⟩

/-- A call that has not returned goes on, unless it waits for its writer. -/
theorem Results.goesOn (h : s.Results) {i : CallId} {c : Call α β} (hc : s.calls i = some c)
    (hopen : ∀ r, c.phase ≠ .returned r) :
    s.GoesOn ∨ (c.phase = .waiting ∧ c.writer = true) := by
  obtain ⟨request, phase, item, writer⟩ := c
  cases phase with
  | pushing =>
      refine Or.inl (goesOn_of (a := .upgrade i) rfl ?_)
      simp only [ClientRpc.other, hc]
      split <;> rfl
  | upgraded =>
      refine Or.inl (goesOn_of (a := .push i) rfl ?_)
      simp only [ClientRpc.other, hc]
      split <;> rfl
  | pushed ok =>
      refine Or.inl (goesOn_of (a := .release i) rfl ?_)
      simp only [ClientRpc.other, hc]
      rfl
  | draining ok =>
      refine Or.inl (goesOn_of (a := .drain i) rfl ?_)
      simp only [ClientRpc.other, hc]
      split <;> rfl
  | waiting =>
      cases writer with
      | true => exact Or.inr ⟨rfl, rfl⟩
      | false =>
          refine Or.inl (goesOn_of (a := .finish i) rfl ?_)
          simp only [ClientRpc.other, hc]
          rfl
  | failing =>
      cases writer with
      | true => cases (h.refused i _ hc rfl).2 rfl
      | false =>
          refine Or.inl (goesOn_of (a := .finish i) rfl ?_)
          simp only [ClientRpc.other, hc]
          rfl
  | returned r => exact absurd rfl (hopen r)

/-- Where nothing goes on, a handler that is not live is dropped, with all
writers. -/
theorem Ownership.at_rest (ho : s.Ownership) (hr : s.Results) (hdead : s.handler ≠ .live)
    (hrest : ¬ s.GoesOn) : s.handler = .dropped ∧ s.inFlight = [] ∧ s.queue = [] := by
  have hdropped : s.handler = .dropped := by
    cases hhandler : s.handler with
    | live => exact absurd hhandler hdead
    | dropping =>
        cases hf : s.inFlight with
        | nil =>
            refine absurd (goesOn_of (a := .dropQueue) rfl ?_) hrest
            simp only [ClientRpc.other, hhandler, hf]
            rfl
        | cons =>
            refine absurd (goesOn_of (a := .dropWriter) rfl ?_) hrest
            simp only [ClientRpc.other, hhandler, hf]
            rfl
    | draining =>
        cases hq : s.queue with
        | nil =>
            exact absurd (goesOn_of (a := .drainQueue) rfl
              (by simp only [ClientRpc.other, hhandler, hq]; rfl)) hrest
        | cons =>
            exact absurd (goesOn_of (a := .drainQueue) rfl
              (by simp only [ClientRpc.other, hhandler, hq]; rfl)) hrest
    | dropped => rfl
  -- a call that holds the queue, or is dropping it, would go on
  have hpassive : ∀ {i : CallId} {p : Call α β → Bool}, callIs p s.calls i = true →
      (∀ c, c.phase = .waiting → p c = false) → (∀ c r, c.phase = .returned r → p c = false) →
      False := by
    intro i p hi hwaiting hreturned
    obtain ⟨c, hc, hp⟩ := (Option.any_eq_true _ _).mp hi
    by_cases hopen : ∀ r, c.phase ≠ .returned r
    · rw [hwaiting c ((hr.goesOn hc hopen).resolve_left hrest).1] at hp
      cases hp
    · obtain ⟨r, hr⟩ := not_forall.mp hopen
      rw [hreturned c r (not_not.mp hr)] at hp
      cases hp
  refine ⟨hdropped, ?_, ?_⟩
  · by_contra hne
    have := ho.inFlight hne
    simp [hdropped] at this
  · by_contra hne
    rcases ho.queue hne with hh | hholders | ⟨i, hi⟩
    · exact hh hdropped
    · obtain ⟨i, hi⟩ := List.exists_mem_of_ne_nil _ hholders
      exact hpassive ((ho.holders i).mp hi) (fun c hph => by simp [Call.holds, hph])
        fun c r hph => by simp [Call.holds, hph]
    · exact hpassive hi (fun c hph => by simp [Call.drains, hph])
        fun c r hph => by simp [Call.drains, hph]

/-- No call is left that has no writer to wait for. -/
theorem Ownership.returned_at_rest (ho : s.Ownership) (hr : s.Results) (hinFlight : s.inFlight = [])
    (hqueue : s.queue = []) (hrest : ¬ s.GoesOn) {i : CallId} {c : Call α β}
    (hc : s.calls i = some c) : ∃ r, c.phase = .returned r := by
  by_contra hopen
  obtain ⟨hphase, hwriter⟩ := (hr.goesOn hc (not_exists.mp hopen)).resolve_left hrest
  have howned := ho.owned i
  have howns : c.owns = false := by simp [Call.owns, hphase]
  rw [owners, callIs_of hc, callIs_of hc, hwriter, howns] at howned
  simp [hinFlight, hqueue] at howned

/-- The handler is dropped and all calls have returned, those of `new` with `Err`. -/
def Ended (new : CallId → Prop) (s : ClientRpc α β) : Prop :=
  s.handler = .dropped ∧ ∀ i c, s.calls i = some c →
    ∃ r, c.phase = .returned r ∧ (new i → r = none)

end ClientRpc

end Calls

/-! ## Client connections -/

section Connections

variable {P Req Resp : Type} [Bincode Req] [AssociateHandleForMessage Req]
  [Bincode Resp] [AssociateHandleForMessage Resp]

abbrev ClientConnection (P Req Resp : Type) [AssociateHandleForMessage Req]
    [AssociateHandleForMessage Resp] :=
  Connection P Resp Req (ClientRpc (Item Req) (Item Resp))

/-- A step of a client connection in any environment: anything may be in the
stream from the peer. -/
def clientStep (pipe : PipeOps P) (c : ClientConnection P Req Resp)
    (a : List Tok × ConnAction (RpcAction (Item Req))) : Option (ClientConnection P Req Resp) :=
  (c.step pipe clientOps a.1 a.2).map Prod.fst

omit [Bincode Req] [Bincode Resp] in
theorem clientOps_inv : HandlerInv (clientOps : HandlerOps Resp Req _ _)
    (fun s _ _ => s.Ownership ∧ s.Results) where
  drop h := ⟨h.1.drop, h.2.drop⟩
  other h hs := ⟨h.1.other hs, h.2.other hs⟩
  consume h hs := ⟨(h.1.consume hs).1, h.2.consume h.1 hs⟩
  reject h hs := ⟨(h.1.consume hs).1.drop, (h.2.consume h.1 hs).drop⟩
  panic h hs := nomatch (h.1.consume hs).2
  produce h hs := ⟨h.1.produce hs, h.2.produce hs⟩
  lose h hs := ⟨(h.1.produce hs).drop, (h.2.produce hs).drop⟩
  drain h hs := ⟨h.1.produce hs, h.2.produce hs⟩
  refuse h hs := ⟨(h.1.produce hs).drop, (h.2.produce hs).drop⟩

omit [Bincode Req] [Bincode Resp] in
theorem clientLive : HandlerLive (clientOps : HandlerOps Resp Req _ _)
    (fun s : ClientRpc (Item Req) (Item Resp) => s.handler = .live) where
  other := by
    intro a s s' hlive h
    simp only [clientOps, ClientRpc.other] at h
    (repeat' split at h) <;> cases h <;> first | exact hlive | simp_all
  consume := by
    intro _ s s' m hlive h
    obtain ⟨-, ⟨e, -, hr, -⟩ | ⟨i, rest, -, ⟨_, _, _, -, -, rfl⟩ | ⟨-, msg, hr, -⟩⟩⟩ :=
      ClientRpc.consume_cases h
    · cases hr
    · exact hlive
    · cases hr
  produce := by
    intro _ s s' m hlive h
    obtain ⟨-, ⟨i, request, queue, -, -, rfl⟩ | ⟨-, -, rfl⟩ | ⟨e, -, rfl⟩⟩ :=
      ClientRpc.produce_cases h <;> exact hlive

theorem clientStep_frozen {pipe : PipeOps P} {c c' : ClientConnection P Req Resp}
    {a : List Tok × ConnAction (RpcAction (Item Req))} (hc : c.driver.handler.handler ≠ .live)
    (h : clientStep pipe c a = some c') : c.driver.handler.Frozen c'.driver.handler := by
  obtain ⟨⟨c₁, toks, w⟩, hstep, rfl⟩ := Option.map_eq_some_iff.mp h
  have hcons := ClientRpc.consume_of_dropped (s := c.driver.handler) hc
  have hprod := ClientRpc.produce_of_dropped (s := c.driver.handler) hc
  cases step_handled hstep with
  | nothing hh => rw [hh]; exact ⟨hc, rfl⟩
  | dropped hh => rw [hh]; exact ClientRpc.frozen_drop hc
  | other e h hops hh => rw [hh]; exact ClientRpc.frozen_other hc hops
  | consumed e m h hops | rejected e m err h hops | panicked e m msg h hops =>
      have : c.driver.handler.consume m = _ := hops
      rw [hcons] at this
      cases this
  | produced e m h hops | lost e m h hops | drained e h hops | refused e err h hops =>
      have : c.driver.handler.produce = _ := hops
      rw [hprod] at this
      cases this

/-- What a client connection keeps to. -/
structure ClientKept (c : ClientConnection P Req Resp) : Prop where
  ownership : c.driver.handler.Ownership
  results : c.driver.handler.Results
  live : c.phase ≠ .removed → c.driver.handler.handler = .live
  finite : c.driver.handler.Finite

omit [Bincode Req] [Bincode Resp] in
theorem clientOps_finite : HandlerInv (clientOps : HandlerOps Resp Req _ _)
    (fun s _ _ => s.Finite) where
  drop h := h.drop
  other h hs := h.other hs
  consume h hs := h.consume hs
  reject h hs := (h.consume hs).drop
  panic h hs := (h.consume hs).drop
  produce h hs := h.produce hs
  lose h hs := (h.produce hs).drop
  drain h hs := h.produce hs
  refuse h hs := (h.produce hs).drop

omit [Bincode Req] [Bincode Resp] in
theorem clientKept_new (io : P) : ClientKept (.new io .new : ClientConnection P Req Resp) where
  ownership := ClientRpc.ownership_new
  results := ClientRpc.results_new
  live _ := rfl
  finite := ⟨[], fun _ hi => absurd rfl hi⟩

theorem clientKept_step {pipe : PipeOps P} {c c' : ClientConnection P Req Resp}
    {a : List Tok × ConnAction (RpcAction (Item Req))} (h : ClientKept c)
    (hstep : clientStep pipe c a = some c') : ClientKept c' := by
  obtain ⟨⟨c₁, toks, w⟩, hconn, rfl⟩ := Option.map_eq_some_iff.mp hstep
  have hhandled := step_handled hconn
  obtain ⟨hownership, hresults⟩ := clientOps_inv.handled ⟨h.ownership, h.results⟩ hhandled
  exact ⟨hownership, hresults, clientLive.handled h.live hhandled,
    clientOps_finite.handled h.finite hhandled⟩

/-- A thread begins something. -/
def ConnAction.begins {α : Type} : ConnAction (RpcAction α) → Bool
  | .other a => ClientRpc.begins a
  | _ => false

theorem clientStep_caller {pipe : PipeOps P} {c : ClientConnection P Req Resp} {toks : List Tok}
    {a : RpcAction (Item Req)} : clientStep pipe c (toks, .other a) =
      (c.driver.handler.other a).map fun handler =>
        { c with driver := { c.driver with handler } } := by
  simp only [clientStep, Connection.step_other, Option.map_map]
  rfl

/-- Only threads and the drop of the handler do anything to a connection whose
handler is not live. -/
theorem clientStep_dead {pipe : PipeOps P} {c c' : ClientConnection P Req Resp}
    {a : List Tok × ConnAction (RpcAction (Item Req))} (h : ClientKept c)
    (hdead : c.driver.handler.handler ≠ .live) (hstep : clientStep pipe c a = some c') :
    ∃ e, a.2 = .other e ∧ c.driver.handler.other e = some c'.driver.handler := by
  obtain ⟨toks, a⟩ := a
  by_cases hother : a.isOther = true
  · cases a with
    | other e =>
        rw [clientStep_caller] at hstep
        obtain ⟨handler, hhandler, rfl⟩ := Option.map_eq_some_iff.mp hstep
        exact ⟨e, rfl, hhandler⟩
    | _ => cases hother
  · obtain ⟨⟨c₁, toks', w⟩, hconn, rfl⟩ := Option.map_eq_some_iff.mp hstep
    exact absurd (h.live (Connection.step_up hconn (by simpa using hother))) hdead

/-- A state that is reached once the handler of `c` is not live. -/
structure Later (c c' : ClientConnection P Req Resp) : Prop extends ClientKept c' where
  dead : c'.driver.handler.handler ≠ .live
  completed : c'.driver.handler.completed = c.driver.handler.completed

theorem Later.step {pipe : PipeOps P} {c c₁ c₂ : ClientConnection P Req Resp}
    {a : List Tok × ConnAction (RpcAction (Item Req))} (h : Later c c₁)
    (hstep : clientStep pipe c₁ a = some c₂) : Later c c₂ := by
  have hfrozen := clientStep_frozen h.dead hstep
  exact ⟨clientKept_step h.toClientKept hstep, hfrozen.handler, hfrozen.completed.trans h.completed⟩

omit [Bincode Req] [Bincode Resp] in
/-- A call that starts by then gets no response. -/
theorem Later.not_answered {c c' : ClientConnection P Req Resp} (h : Later c c')
    (hc : ClientKept c) {i : CallId} (hnew : c.driver.handler.calls i = none)
    {call : Call (Item Req) (Item Resp)} {v : Item Resp}
    (hcall : c'.driver.handler.calls i = some call) : call.phase ≠ .returned (some v) := by
  intro hphase
  have hmem : (i, v) ∈ c'.driver.handler.completed :=
    (h.results.outcome i v).mpr ⟨call, hcall, by simp [Call.outcome, hphase]⟩
  rw [h.completed] at hmem
  obtain ⟨call', hcall', -⟩ := (hc.results.outcome i v).mp hmem
  rw [hnew] at hcall'
  cases hcall'

/-- Where the threads have nothing left to go on with, all calls have returned. -/
theorem Later.ended {pipe : PipeOps P} {c c' : ClientConnection P Req Resp} (h : Later c c')
    (hc : ClientKept c) (hrest : ¬ ∃ a c'', a.2.begins = false ∧ clientStep pipe c' a = some c'') :
    c'.driver.handler.Ended fun i => c.driver.handler.calls i = none := by
  have hstill : ¬ c'.driver.handler.GoesOn := by
    rintro ⟨e, s, hgoes, hops⟩
    have hs : clientStep pipe c' ([], .other e) =
        some { c' with driver := { c'.driver with handler := s } } := by
      rw [clientStep_caller, hops]
      rfl
    exact hrest ⟨([], .other e), _, ClientRpc.begins_of_goesOn hgoes, hs⟩
  obtain ⟨hdropped, hinFlight, hqueue⟩ := h.ownership.at_rest h.results h.dead hstill
  refine ⟨hdropped, fun i call hcall => ?_⟩
  obtain ⟨r, hr⟩ := h.ownership.returned_at_rest h.results hinFlight hqueue hstill hcall
  refine ⟨r, hr, fun hnew => ?_⟩
  cases r with
  | none => rfl
  | some v => exact absurd hr (h.not_answered hc hnew hcall)

theorem Later.inevitable {pipe : PipeOps P} {c c' : ClientConnection P Req Resp} (h : Later c c')
    (hc : ClientKept c) : Lts.Inevitable (clientStep pipe) (fun _ a => a.2.begins = false)
      (fun c' => c'.driver.handler.Ended fun i => c.driver.handler.calls i = none) c' := by
  obtain ⟨ids, hids⟩ := h.finite
  refine Lts.inevitable_of_measure (m := fun c' => c'.driver.handler.toGo ids)
    (I := fun c' => Later c c' ∧ Covers ids c'.driver.handler.calls) wellFounded_lt ?_ ?_ ?_
    ⟨h, hids⟩
  · intro c₁ a c₂ h hbegins hstep
    obtain ⟨e, he, hops⟩ := clientStep_dead h.1.toClientKept h.1.dead hstep
    rw [he] at hbegins
    exact ⟨h.1.step hstep, ClientRpc.covers_other h.2 hbegins hops⟩
  · intro c₁ a c₂ h hbegins hstep
    obtain ⟨e, he, hops⟩ := clientStep_dead h.1.toClientKept h.1.dead hstep
    rw [he] at hbegins
    exact ClientRpc.toGo_other h.2 hbegins hops
  · exact fun c₁ h hopen => not_not.mp fun hnone => hopen (h.1.ended hc hnone)

/-- In every state that a client connection reaches, on any pipe and with
any peer, the calls are as `Released` says. A call that starts when the
handler is being dropped, or later, does not return `Ok`; and from then on,
whenever the threads begin nothing more, the handler is dropped to the end
and all calls return, these ones with `Err`. -/
theorem calls_released (pipe : PipeOps P) (io : P)
    {as bs : List (List Tok × ConnAction (RpcAction (Item Req)))}
    {c c' : ClientConnection P Req Resp}
    (hrun : Lts.runs (clientStep pipe) (.new io .new) as = some c)
    (hmore : Lts.runs (clientStep pipe) c bs = some c') :
    c.driver.handler.Released ∧
      (c.driver.handler.handler ≠ .live → ∀ i, c.driver.handler.calls i = none →
        ∀ call v, c'.driver.handler.calls i = some call → call.phase ≠ .returned (some v)) ∧
      (c.driver.handler.handler ≠ .live →
        Lts.Inevitable (clientStep pipe) (fun _ a => a.2.begins = false)
          (fun c' => c'.driver.handler.Ended fun i => c.driver.handler.calls i = none) c') := by
  have hc : ClientKept c :=
    Lts.runs_invariant (fun _ _ _ => clientKept_step) (clientKept_new io) hrun
  have hlater : c.driver.handler.handler ≠ .live → Later c c' := fun hdead =>
    Lts.runs_invariant (fun _ _ _ => Later.step) ⟨hc, hdead, rfl⟩ hmore
  exact ⟨ClientRpc.released_of hc.ownership hc.results,
    fun hdead _ hnew _ _ hcall => (hlater hdead).not_answered hc hnew hcall,
    fun hdead => (hlater hdead).inevitable hc⟩

/-- Call 0 has been produced and call 1 holds the queue when the peer closes
the connection; call 1 drops the queue and its own writer with it. Call 2 is
made through a clone when all this is over. -/
theorem calls_released_run : ∃ c c' : ClientConnection Unit Bool Bool,
    c.driver.handler.handler = .dropped ∧ c.driver.handler.Released ∧
      c.driver.handler.calls 2 = none ∧ callIs Call.inPush c'.driver.handler.calls 2 = true ∧
      Lts.Inevitable (clientStep bytePipe) (fun _ a => a.2.begins = false)
        (fun c' => c'.driver.handler.Ended fun i => c.driver.handler.calls i = none) c' := by
  let script : List (List Tok × ConnAction (RpcAction (Item Bool))) :=
    [([], .other (.call 0 .bare)), ([], .other (.upgrade 0)), ([], .other (.push 0)),
     ([], .other (.release 0)), ([], .wake), ([], .flushItem .cloneProxy),
     ([], .flushItem .cloneProxy), ([], .sendMsg (.ok 13)), ([], .finish true),
     ([], .other (.call 1 .bare)), ([], .other (.upgrade 1)), ([], .event true),
     ([], .recvMsg (.ok 0)), ([], .flushItem .cloneProxy), ([], .finish true),
     ([], .other .dropWriter), ([], .other .dropQueue), ([], .other (.push 1)),
     ([], .other (.release 1)), ([], .other (.drain 1)), ([], .other (.drain 1)),
     ([], .other (.finish 0)), ([], .other (.finish 1))]
  let late : List (List Tok × ConnAction (RpcAction (Item Bool))) :=
    [([], .other .cloneProxy), ([], .other (.call 2 .bare))]
  have hrun : (Lts.runs (clientStep bytePipe) (.new () .new) script).map
      (fun c : ClientConnection Unit Bool Bool => (c.driver.handler.handler,
        (c.driver.handler.calls 2).isNone, (Lts.runs (clientStep bytePipe) c late).map
          fun c' => callIs Call.inPush c'.driver.handler.calls 2)) =
      some (.dropped, true, some true) := by
    decide +kernel
  obtain ⟨c, hc, heq⟩ := Option.map_eq_some_iff.mp hrun
  simp only [Prod.mk.injEq] at heq
  obtain ⟨hdropped, hnone, hlate⟩ := heq
  obtain ⟨c', hc', hpushing⟩ := Option.map_eq_some_iff.mp hlate
  obtain ⟨hreleased, -, hends⟩ := calls_released bytePipe () hc hc'
  exact ⟨c, c', hdropped, hreleased, Option.isNone_iff_eq_none.mp hnone, hpushing,
    hends (by rw [hdropped]; nofun)⟩

end Connections

end Audioipc

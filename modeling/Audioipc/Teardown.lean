import Mathlib.Data.Bool.Basic
import Audioipc.Effects
import Audioipc.Rpc

/-!
# The writers of a handler

Two invariants of everything that can happen to a `ClientHandler` and its
calls. `Ownership` is about who has the writers: it counts, for each call,
the places its writer is in, and says who is responsible for dropping what
is still in the queue. `Results` is about what calls return: exactly the
values that `consume` set. Together they say what is left of the calls once
the handler is gone (`Released`).
-/

namespace Audioipc

/-! ## Calls and the places of a writer -/

section Calls

variable {α β : Type}

/-- The caller itself owns the writer. -/
def Call.owns (c : Call α β) : Bool :=
  match c.phase with
  | .pushing | .upgraded => true
  | _ => false

/-- The caller holds a strong reference to the queue. -/
def Call.holds (c : Call α β) : Bool :=
  match c.phase with
  | .upgraded | .pushed _ => true
  | _ => false

def Call.drains (c : Call α β) : Bool :=
  match c.phase with
  | .draining _ => true
  | _ => false

def Call.inPush (c : Call α β) : Bool := c.owns || c.holds || c.drains

/-- The queue does not have the request, and will not get it any more or has
not got it yet. -/
def Call.refused (c : Call α β) : Bool :=
  match c.phase with
  | .pushing | .upgraded | .pushed false | .draining false | .failing => true
  | _ => false

/-- What the call has been given, whether or not it has returned. -/
def Call.outcome (c : Call α β) : Option β :=
  match c.phase with
  | .returned r => r
  | _ => c.item

/-- The call exists and passes a test. -/
def callIs (p : Call α β → Bool) (calls : CallId → Option (Call α β)) (i : CallId) : Bool :=
  (calls i).any p

@[simp] theorem callIs_update (p : Call α β → Bool) (calls : CallId → Option (Call α β))
    (i j : CallId) (c : Call α β) : callIs p (Function.update calls i (some c)) j =
      if j = i then p c else callIs p calls j := by
  unfold callIs
  by_cases h : j = i
  · subst h; simp
  · simp [h]

theorem callIs_of {calls : CallId → Option (Call α β)} {p : Call α β → Bool} {i : CallId}
    {c : Call α β} (h : calls i = some c) : callIs p calls i = p c := by
  simp [callIs, h]

theorem callIs_tests {calls : CallId → Option (Call α β)} {i : CallId} {c : Call α β}
    (h : calls i = some c) : callIs Call.owns calls i = c.owns ∧
      callIs Call.holds calls i = c.holds ∧ callIs Call.drains calls i = c.drains ∧
      callIs Call.writer calls i = c.writer :=
  ⟨callIs_of h, callIs_of h, callIs_of h, callIs_of h⟩

theorem callIs_of_none {calls : CallId → Option (Call α β)} {p : Call α β → Bool} {i : CallId}
    (h : calls i = none) : callIs p calls i = false := by
  simp [callIs, h]

namespace ClientRpc

/-- How many places the writer of call `i` is in. -/
def owners (s : ClientRpc α β) (i : CallId) : Nat :=
  (if callIs Call.owns s.calls i then 1 else 0) + (s.queue.map Prod.fst).count i +
    s.inFlight.count i

theorem callIs_dropCompletionWriter (s : ClientRpc α β) (p : Call α β → Bool) (i j : CallId) :
    callIs p (s.dropCompletionWriter i).calls j =
      if j = i then callIs (fun c => p { c with writer := false }) s.calls j
      else callIs p s.calls j := by
  unfold callIs dropCompletionWriter
  by_cases h : j = i
  · subst h; simp [Option.any_map]
  · simp [h]

/-! ## Who owns the writers -/

/-- A writer that is not dropped is in exactly one place (`owned`), and
somebody will drop what is in the queue (`queue`), but only after its last
strong reference (`drainer`). -/
structure Ownership (s : ClientRpc α β) : Prop where
  owned : ∀ i, s.owners i = if callIs Call.writer s.calls i then 1 else 0
  holders : ∀ i, i ∈ s.holders ↔ callIs Call.holds s.calls i = true
  nodup : s.holders.Nodup
  queue : s.queue ≠ [] →
    s.handler ≠ .dropped ∨ s.holders ≠ [] ∨ ∃ i, callIs Call.drains s.calls i = true
  inFlight : s.inFlight ≠ [] → s.handler = .live ∨ s.handler = .dropping
  drainer : ∀ i, callIs Call.drains s.calls i = true → s.alive = false

theorem ownership_new : (new : ClientRpc α β).Ownership where
  owned := by simp [owners, new, callIs]
  holders := by simp [new, callIs]
  nodup := List.nodup_nil
  queue := by simp [new]
  inFlight := by simp [new]
  drainer := by simp [new, callIs]

variable {s s' : ClientRpc α β}

/-- Dropping a writer together with the place it was in. -/
theorem Ownership.dropPlace (h : s.Ownership) {i : CallId} {queue : List (CallId × α)}
    {inFlight : List CallId}
    (hcount : ∀ j, (s.queue.map Prod.fst).count j + s.inFlight.count j =
      (queue.map Prod.fst).count j + inFlight.count j + if j = i then 1 else 0)
    (hqueue : queue ≠ [] → s.queue ≠ []) (hinFlight : inFlight ≠ [] → s.inFlight ≠ []) :
    Ownership { s.dropCompletionWriter i with queue, inFlight } := by
  have hdrop : ∀ {p : Call α β → Bool}, (∀ c, p { c with writer := false } = p c) → ∀ j,
      callIs p (s.dropCompletionWriter i).calls j = callIs p s.calls j := by
    intro p hp j
    rw [callIs_dropCompletionWriter, funext hp, ite_self]
  have hwriter : ∀ j, callIs Call.writer (s.dropCompletionWriter i).calls j =
      if j = i then false else callIs Call.writer s.calls j := by
    intro j
    rw [callIs_dropCompletionWriter]
    cases hj : s.calls j <;> simp [callIs, hj]
  have hdrains := hdrop (p := Call.drains) fun c => rfl
  refine ⟨fun j => ?_, fun j => ?_, h.nodup, fun hne => ?_,
    fun hne => h.inFlight (hinFlight hne), fun j hj => h.drainer j (hdrains j ▸ hj)⟩
  · have hj := h.owned j
    have hc := hcount j
    simp only [owners] at hj ⊢
    rw [hdrop fun c => rfl, hwriter]
    by_cases hij : j = i
    · rw [if_pos hij] at hc
      simp only [if_pos hij, Bool.false_eq_true, if_false]
      -- the writer was in the place that goes, and in no other
      cases howns : callIs Call.owns s.calls j <;> cases hw : callIs Call.writer s.calls j <;>
        simp only [howns, hw, if_true, if_false, Bool.false_eq_true] at hj ⊢ <;> omega
    · rw [if_neg hij] at hc ⊢
      omega
  · rw [hdrop fun c => rfl]
    exact h.holders j
  · simp only [hdrains]
    exact h.queue (hqueue hne)

theorem Ownership.dropQueued (h : s.Ownership) {i : CallId} {request : α}
    {queue : List (CallId × α)} (hq : s.queue = (i, request) :: queue) :
    Ownership { s.dropCompletionWriter i with queue } := by
  refine h.dropPlace (fun j => ?_) (by simp [hq]) id
  rw [hq, List.map_cons, List.count_cons]
  grind [dropCompletionWriter]

theorem Ownership.dropInFlight (h : s.Ownership) {i : CallId} {inFlight : List CallId}
    (hf : s.inFlight = i :: inFlight) :
    Ownership { s.dropCompletionWriter i with inFlight } := by
  refine h.dropPlace (fun j => ?_) id (by simp [hf])
  rw [hf, List.count_cons]
  grind [dropCompletionWriter]

theorem Ownership.moveOn (h : s.Ownership) {i : CallId} {c c' : Call α β}
    (hc : s.calls i = some c) (howns : c'.owns = c.owns) (hholds : c'.holds = c.holds)
    (hdrains : c'.drains = c.drains) (hwriter : c'.writer = c.writer) :
    (s.setCall i c').Ownership := by
  have hsame : ∀ p : Call α β → Bool, p c' = p c → ∀ j,
      callIs p (s.setCall i c').calls j = callIs p s.calls j := by
    intro p hp j
    simp only [setCall, callIs_update]
    split
    · rename_i hij
      rw [hij, callIs_of hc, hp]
    · rfl
  obtain ⟨owned, holders, nodup, queue, inFlight, drainer⟩ := h
  refine ⟨fun j => ?_, fun j => ?_, nodup, ?_, inFlight, fun j => ?_⟩
  · have := owned j
    rw [owners, hsame _ howns, hsame _ hwriter]
    exact this
  · rw [hsame _ hholds]; exact holders j
  · simp only [hsame _ hdrains]; exact queue
  · rw [hsame _ hdrains]; exact drainer j

/-- Every step of another thread, and of the drop of the handler, keeps
track of the writers. -/
theorem Ownership.other (h : s.Ownership) {a : RpcAction α} (hs : s.other a = some s') :
    s'.Ownership := by
  obtain ⟨owned, holders, nodup, queue, inFlight, drainer⟩ := id h
  cases other_cases hs with
  | cloneProxy | dropProxy => exact ⟨owned, holders, nodup, queue, inFlight, drainer⟩
  | call hnone =>
      have hnew : ∀ p, callIs p s.calls _ = false := fun p => callIs_of_none hnone
      refine ⟨?_, ?_, nodup, ?_, inFlight, ?_⟩ <;>
        simp only [owners, setCall, callIs_update, alive] at *
      · grind [Call.owns]
      · grind [Call.holds]
      · grind [Call.drains]
      · grind [Call.drains]
  | upgraded hc halive | gone hc halive =>
      obtain ⟨howns, hholds, hdrains, hwriter⟩ := callIs_tests hc
      refine ⟨?_, ?_, ?_, ?_, inFlight, ?_⟩ <;>
        simp only [owners, setCall, callIs_update, alive] at *
      all_goals grind [Call.owns, Call.holds, Call.drains]
  | accepted hc | full hc =>
      obtain ⟨howns, hholds, hdrains, hwriter⟩ := callIs_tests hc
      refine ⟨?_, ?_, nodup, ?_, inFlight, ?_⟩ <;>
        simp only [owners, setCall, callIs_update, alive] at *
      all_goals grind [Call.owns, Call.holds, Call.drains]
  | released hc =>
      -- the last reference turns the caller into the one that drops the queue
      obtain ⟨howns, hholds, hdrains, hwriter⟩ := callIs_tests hc
      refine ⟨?_, ?_, ?_, ?_, inFlight, ?_⟩ <;>
        simp only [owners, setCall, callIs_update, alive] at *
      all_goals grind [Call.owns, Call.holds, Call.drains, afterPush]
  | drained hc hqueue =>
      obtain ⟨howns, hholds, hdrains, hwriter⟩ := callIs_tests hc
      refine ⟨?_, ?_, nodup, ?_, inFlight, ?_⟩ <;>
        simp only [owners, setCall, callIs_update, alive] at *
      all_goals grind [Call.owns, Call.holds, Call.drains, afterPush]
  | drainedOne hc hqueue => exact h.dropQueued hqueue
  | finished hc | failed hc => exact h.moveOn hc rfl rfl rfl rfl
  | droppedWriter hhandler hinFlight => exact h.dropInFlight hinFlight
  | droppedQueue hhandler hinFlight =>
      refine ⟨owned, holders, nodup, ?_, ?_, ?_⟩ <;> simp only [alive] at *
      all_goals grind
  | emptied hhandler hqueue =>
      refine ⟨owned, holders, nodup, ?_, ?_, ?_⟩ <;> simp only [alive] at *
      all_goals grind
  | drainedQueue hhandler hqueue => exact h.dropQueued hqueue

/-- A writer in `in_flight` is not dropped, so the assertion in
`CompletionWriter::set` holds and `consume` does not panic. -/
theorem Ownership.writer_of_inFlight (h : s.Ownership) {i : CallId} (hi : i ∈ s.inFlight) :
    ∃ request phase item, s.calls i = some ⟨request, phase, item, true⟩ ∧
      Call.owns (⟨request, phase, item, true⟩ : Call α β) = false := by
  have hcount : 0 < s.inFlight.count i := List.count_pos_iff.mpr hi
  have hw : callIs Call.writer s.calls i = true := by
    have := h.owned i
    cases hw : callIs Call.writer s.calls i with
    | true => rfl
    | false =>
        rw [hw, owners, if_neg Bool.false_ne_true] at this
        omega
  obtain ⟨⟨request, phase, item, writer⟩, hc, hwriter⟩ := (Option.any_eq_true _ _).mp hw
  obtain rfl : writer = true := hwriter
  refine ⟨request, phase, item, hc, ?_⟩
  have hone := h.owned i
  rw [owners, hw, callIs_of hc, if_pos rfl] at hone
  cases howns : Call.owns (⟨request, phase, item, true⟩ : Call α β) with
  | false => rfl
  | true => rw [howns, if_pos rfl] at hone; omega

theorem Ownership.consume (h : s.Ownership) {response : β}
    {r : Except String (Except IoError Unit)} (hs : s.consume response = some (r, s')) :
    s'.Ownership ∧ ∃ r', r = .ok r' := by
  obtain ⟨hlive, ⟨e, -, rfl, rfl⟩ | ⟨i, rest, hf, ⟨request, phase, item, hc, rfl, rfl⟩ |
    ⟨hc, -⟩⟩⟩ := consume_cases hs
  · exact ⟨h, _, rfl⟩
  · obtain ⟨howns, hholds, hdrains, hwriter⟩ := callIs_tests hc
    obtain ⟨owned, holders, nodup, queue, inFlight, drainer⟩ := h
    refine ⟨⟨?_, ?_, nodup, ?_, fun _ => Or.inl hlive, ?_⟩, _, rfl⟩ <;>
      simp only [owners, setCall, callIs_update, alive] at *
    all_goals grind [Call.owns, Call.holds, Call.drains]
  · obtain ⟨request, phase, item, hc', -⟩ := h.writer_of_inFlight (i := i) (by simp [hf])
    exact absurd hc' (hc request phase item)

theorem Ownership.produce (h : s.Ownership) {r : Except IoError (Option α)}
    (hs : s.produce = some (r, s')) : s'.Ownership := by
  obtain ⟨hlive, ⟨i, request, rest, -, hq, rfl⟩ | ⟨-, -, rfl⟩ | ⟨e, -, rfl⟩⟩ := produce_cases hs
  · obtain ⟨owned, holders, nodup, queue, inFlight, drainer⟩ := h
    refine ⟨fun j => ?_, holders, nodup, fun _ => Or.inl (by simp [hlive]),
      fun _ => Or.inl hlive, drainer⟩
    have := owned j
    simp only [owners, hq, List.map_cons, List.count_cons, List.count_append,
      List.count_nil] at this ⊢
    omega
  · exact h
  · exact h

theorem Ownership.drop (h : s.Ownership) : s.drop.Ownership := by
  obtain ⟨owned, holders, nodup, queue, inFlight, drainer⟩ := h
  refine ⟨owned, holders, nodup, fun hq => ?_, fun hf => ?_, fun i hi => ?_⟩ <;>
    simp only [ClientRpc.drop, alive] at *
  all_goals grind

/-! ## What calls return -/

/-- The calls that have got what `consume` set, and the others. A completion is
written to and returned from only once its writer is gone (`settled`), and a
writer that the queue does not have is with the caller, or gone (`refused`). -/
structure Results (s : ClientRpc α β) : Prop where
  outcome : ∀ i v, (i, v) ∈ s.completed ↔ ∃ c, s.calls i = some c ∧ c.outcome = some v
  once : (s.completed.map Prod.fst).Nodup
  settled : ∀ i c, s.calls i = some c →
    (c.outcome ≠ none ∨ ∃ r, c.phase = .returned r) → c.writer = false
  refused : ∀ i c, s.calls i = some c → c.refused = true →
    c.item = none ∧ (c.writer = true → c.owns = true)

theorem results_new : (new : ClientRpc α β).Results where
  outcome := by simp [new]
  once := List.nodup_nil
  settled := by simp [new]
  refused := by simp [new]

/-- Dropping a writer, moving a call on, and everything else that leaves the
outcomes as they are. -/
theorem Results.of_calls (h : s.Results) {i : CallId} {c' : Option (Call α β)}
    (hcalls : s'.calls = Function.update s.calls i c') (hcompleted : s'.completed = s.completed)
    (houtcome : c'.bind Call.outcome = (s.calls i).bind Call.outcome)
    (hsettled : ∀ c, c' = some c → (c.outcome ≠ none ∨ ∃ r, c.phase = .returned r) →
      c.writer = false)
    (hrefused : ∀ c, c' = some c → c.refused = true →
      c.item = none ∧ (c.writer = true → c.owns = true)) : s'.Results := by
  refine ⟨fun j v => ?_, hcompleted ▸ h.once, fun j c hj => ?_, fun j c hj => ?_⟩
  · have hv := h.outcome j v
    rw [← Option.bind_eq_some_iff] at hv ⊢
    rw [hcompleted, hcalls, hv]
    by_cases hij : j = i
    · subst hij; rw [Function.update_self, houtcome]
    · rw [Function.update_of_ne hij]
  · rw [hcalls] at hj
    by_cases hij : j = i
    · subst hij; rw [Function.update_self] at hj; exact hsettled c hj
    · rw [Function.update_of_ne hij] at hj; exact h.settled j c hj
  · rw [hcalls] at hj
    by_cases hij : j = i
    · subst hij; rw [Function.update_self] at hj; exact hrefused c hj
    · rw [Function.update_of_ne hij] at hj; exact h.refused j c hj

theorem Results.dropWriter (h : s.Results) {i : CallId}
    (hcalls : s'.calls = (s.dropCompletionWriter i).calls)
    (hcompleted : s'.completed = s.completed) : s'.Results := by
  refine h.of_calls hcalls hcompleted ?_ ?_ ?_
  · cases s.calls i <;> rfl
  · rintro c hc -
    obtain ⟨c, -, rfl⟩ := Option.map_eq_some_iff.mp hc
    rfl
  · intro c hc hrefused
    obtain ⟨c, hi, rfl⟩ := Option.map_eq_some_iff.mp hc
    exact ⟨(h.refused i c hi hrefused).1, nofun⟩

theorem Results.other (h : s.Results) {a : RpcAction α} (hs : s.other a = some s') :
    s'.Results := by
  cases other_cases hs with
  | cloneProxy | dropProxy | droppedQueue | emptied =>
      exact ⟨h.outcome, h.once, h.settled, h.refused⟩
  | call hnone =>
      refine h.of_calls rfl rfl (by rw [hnone]; rfl) ?_ ?_ <;> rintro c ⟨⟩
      · simp [Call.outcome]
      · exact fun _ => ⟨rfl, fun _ => rfl⟩
  | upgraded hc | gone hc =>
      obtain rfl := (h.refused _ _ hc rfl).1
      refine h.of_calls rfl rfl (by rw [hc]; rfl) ?_ ?_ <;> rintro c ⟨⟩ <;>
        simp [Call.outcome, Call.owns]
  | accepted hc | full hc =>
      obtain rfl := (h.refused _ _ hc rfl).1
      refine h.of_calls rfl rfl (by rw [hc]; rfl) ?_ ?_ <;> rintro c ⟨⟩ <;>
        simp [Call.outcome, Call.refused]
  | @released i request ok item writer hc =>
      have hsettled := h.settled i _ hc
      have hrefused := h.refused i _ hc
      refine h.of_calls rfl rfl ?_ ?_ ?_
      · rw [hc]; cases ok <;> split <;> rfl
      · rintro c ⟨⟩
        cases ok <;> split <;> simpa [Call.outcome, afterPush] using hsettled
      · rintro c ⟨⟩
        cases ok <;> split <;> simp_all [Call.refused, Call.owns, afterPush]
  | @drained i request ok item writer hc =>
      have hsettled := h.settled i _ hc
      have hrefused := h.refused i _ hc
      refine h.of_calls rfl rfl ?_ ?_ ?_
      · rw [hc]; cases ok <;> rfl
      · rintro c ⟨⟩
        cases ok <;> simpa [Call.outcome, afterPush] using hsettled
      · rintro c ⟨⟩
        cases ok <;> simp_all [Call.refused, Call.owns, afterPush]
  | finished hc =>
      refine h.of_calls rfl rfl (by rw [hc]; rfl) ?_ ?_ <;> rintro c ⟨⟩
      · exact fun _ => rfl
      · exact fun h => nomatch h
  | failed hc =>
      obtain rfl := (h.refused _ _ hc rfl).1
      refine h.of_calls rfl rfl (by rw [hc]; rfl) ?_ ?_ <;> rintro c ⟨⟩
      · exact fun _ => rfl
      · exact fun h => nomatch h
  | drainedOne | droppedWriter | drainedQueue => exact h.dropWriter rfl rfl

theorem Results.consume (h : s.Results) (ho : s.Ownership) {response : β}
    {r : Except String (Except IoError Unit)} (hs : s.consume response = some (r, s')) :
    s'.Results := by
  obtain ⟨-, ⟨e, -, -, rfl⟩ | ⟨i, rest, hf, ⟨request, phase, item, hc, -, rfl⟩ |
    ⟨hc, -⟩⟩⟩ := consume_cases hs
  · exact h
  · -- with its writer still there, the call has no outcome yet and has not returned
    have hopen : ∀ r, phase ≠ .returned r := by
      rintro r rfl
      exact Bool.noConfusion (h.settled i _ hc (Or.inr ⟨r, rfl⟩))
    have hnone : Call.outcome ⟨request, phase, item, true⟩ = none := by
      cases hout : Call.outcome ⟨request, phase, item, true⟩ with
      | none => rfl
      | some v => exact Bool.noConfusion (h.settled i _ hc (Or.inl (by simp [hout])))
    have hnew : ∀ v, (i, v) ∉ s.completed := by
      intro v hv
      obtain ⟨c, hc', hv'⟩ := (h.outcome i v).mp hv
      rw [hc] at hc'
      cases hc'
      rw [hnone] at hv'
      cases hv'
    have hout : Call.outcome ⟨request, phase, some response, false⟩ = some response := by
      unfold Call.outcome
      split
      · rename_i r hr; exact absurd hr (hopen r)
      · rfl
    refine ⟨fun j v => ?_, ?_, fun j c hj => ?_, fun j c hj => ?_⟩
    · by_cases hij : j = i
      · subst hij
        simp [setCall, hout, hnew, eq_comm]
      · simp [setCall, hij, h.outcome j v]
    · rw [List.map_append, List.nodup_append]
      refine ⟨h.once, by simp, fun a ha b hb => ?_⟩
      obtain ⟨⟨j, v⟩, hjv, rfl⟩ := List.mem_map.mp ha
      rintro rfl
      simp only [List.map_cons, List.map_nil, List.mem_singleton] at hb
      exact hnew v (hb ▸ hjv)
    · by_cases hij : j = i
      · subst hij
        simp only [setCall, Function.update_self] at hj
        cases hj
        exact fun _ => rfl
      · simp only [setCall, Function.update_of_ne hij] at hj
        exact h.settled j c hj
    · by_cases hij : j = i
      · subst hij
        simp only [setCall, Function.update_self] at hj
        cases hj
        intro hrefused
        -- the queue has had the request, since the writer is not with the caller
        obtain ⟨request', phase', item', hc', howns⟩ :=
          ho.writer_of_inFlight (i := j) (by simp [hf])
        rw [hc] at hc'
        cases hc'
        have := (h.refused _ _ hc hrefused).2 rfl
        rw [howns] at this
        cases this
      · simp only [setCall, Function.update_of_ne hij] at hj
        exact h.refused j c hj
  · obtain ⟨request, phase, item, hc', -⟩ := ho.writer_of_inFlight (i := i) (by simp [hf])
    exact absurd hc' (hc request phase item)

theorem Results.drop (h : s.Results) : s.drop.Results :=
  ⟨h.outcome, h.once, h.settled, h.refused⟩

theorem Results.produce (h : s.Results) {r : Except IoError (Option α)}
    (hs : s.produce = some (r, s')) : s'.Results := by
  obtain ⟨-, ⟨i, request, rest, -, -, rfl⟩ | ⟨-, -, rfl⟩ | ⟨e, -, rfl⟩⟩ := produce_cases hs
  · exact ⟨h.outcome, h.once, h.settled, h.refused⟩
  · exact h
  · exact h

/-! ## After the drop -/

/-- Once the handler is being dropped, no call is completed any more. -/
structure Frozen (s s' : ClientRpc α β) : Prop where
  handler : s'.handler ≠ .live
  completed : s'.completed = s.completed

theorem frozen_other (hs : s.handler ≠ .live) {a : RpcAction α} (h : s.other a = some s') :
    Frozen s s' := by
  cases other_cases h with
  | droppedQueue => exact ⟨by dsimp only; split <;> simp, rfl⟩
  | emptied => exact ⟨by simp, rfl⟩
  | _ => exact ⟨hs, rfl⟩

theorem frozen_drop (hs : s.handler ≠ .live) : Frozen s s.drop :=
  ⟨by unfold ClientRpc.drop; simp [hs], rfl⟩

theorem consume_of_dropped (hs : s.handler ≠ .live) (response : β) :
    s.consume response = none := by
  cases h : s.consume response with
  | none => rfl
  | some p => exact absurd (consume_cases h).1 hs

theorem produce_of_dropped (hs : s.handler ≠ .live) : s.produce = none := by
  cases h : s.produce with
  | none => rfl
  | some p => exact absurd (produce_cases h).1 hs

/-- What holds of the calls at any time. A writer is with its caller, in the
queue or in `in_flight`, or dropped (`owned`), and a call that has returned has
none that points to it (`settled`). Each call is completed at most once, and
returns `Ok(v)` exactly if `consume` set its writer to `v`. Once the handler is
dropped and nobody is in `push`, all writers are gone, and no call stays
blocked. -/
structure Released (s : ClientRpc α β) : Prop where
  owned : ∀ i, s.owners i = if callIs Call.writer s.calls i then 1 else 0
  settled : ∀ i c r, s.calls i = some c → c.phase = .returned r → c.writer = false
  once : (s.completed.map Prod.fst).Nodup
  result : ∀ i c r, s.calls i = some c → c.phase = .returned r →
    ∀ v, r = some v ↔ (i, v) ∈ s.completed
  dropped : s.handler = .dropped → (∀ i, callIs Call.inPush s.calls i = false) →
    ∀ i, s.owners i = 0 ∧ callIs Call.writer s.calls i = false
  unblocked : s.handler = .dropped → (∀ i, callIs Call.inPush s.calls i = false) →
    ∀ i c, s.calls i = some c → c.phase = .waiting ∨ c.phase = .failing →
      (s.other (.finish i)).isSome

theorem released_of (ho : s.Ownership) (hr : s.Results) : s.Released := by
  have hdropped : s.handler = .dropped → (∀ i, callIs Call.inPush s.calls i = false) →
      ∀ i, s.owners i = 0 ∧ callIs Call.writer s.calls i = false := by
    intro hdrop hpush i
    have hfree : ∀ j, callIs Call.owns s.calls j = false ∧ callIs Call.holds s.calls j = false ∧
        callIs Call.drains s.calls j = false := by
      intro j
      have := hpush j
      cases hj : s.calls j with
      | none => exact ⟨callIs_of_none hj, callIs_of_none hj, callIs_of_none hj⟩
      | some c =>
          rw [callIs_of hj] at this
          rw [callIs_of hj, callIs_of hj, callIs_of hj]
          simpa [Call.inPush, and_assoc] using this
    have hholders : s.holders = [] := List.eq_nil_iff_forall_not_mem.mpr fun j hj => by
      have := (ho.holders j).mp hj
      rw [(hfree j).2.1] at this
      cases this
    have hqueue : s.queue = [] := by
      cases hq : s.queue with
      | nil => rfl
      | cons x xs =>
          rcases ho.queue (by simp [hq]) with h | h | ⟨j, hj⟩
          · exact absurd hdrop h
          · exact absurd hholders h
          · rw [(hfree j).2.2] at hj; cases hj
    have hinFlight : s.inFlight = [] := by
      cases hf : s.inFlight with
      | nil => rfl
      | cons x xs =>
          have := ho.inFlight (by simp [hf])
          rw [hdrop] at this
          simp at this
    have hzero : s.owners i = 0 := by simp [owners, (hfree i).1, hqueue, hinFlight]
    refine ⟨hzero, ?_⟩
    have := ho.owned i
    rw [hzero] at this
    cases hw : callIs Call.writer s.calls i with
    | false => rfl
    | true => rw [hw] at this; simp at this
  refine ⟨ho.owned, fun i c r hc hphase => hr.settled i c hc (Or.inr ⟨r, hphase⟩), hr.once,
    fun i c r hc hphase v => ?_, hdropped, fun hdrop hpush i c hc hphase => ?_⟩
  · rw [hr.outcome i v, hc]
    simp [Call.outcome, hphase]
  · obtain ⟨request, phase, item, writer⟩ := c
    have hw := (hdropped hdrop hpush i).2
    obtain rfl : writer = false := by rwa [callIs_of hc] at hw
    rcases hphase with rfl | rfl <;> simp [ClientRpc.other, hc]

end ClientRpc

end Calls

end Audioipc

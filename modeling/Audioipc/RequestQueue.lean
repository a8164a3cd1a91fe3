import Audioipc.LoopFailures
import Audioipc.ProxyDrop
import Audioipc.Simulation

/-!
# One request queue

`EventLoop`, `SharedLoop` and `ProxyDrops` each look at the loop from another
side, and each has its request queue. Here they are all the same `RequestQueue`:
what a step of one of them shows of its queue (`queueEvents`) is what some
steps of a `RequestQueue` of 64 show, after which the queues are equal
(`HasQueue`). `wake_connection` is the push of a `WakeConnection` in each of
them, and it is lost if and only if the queue is full, or gone.

What holds of a `RequestQueue` then holds of the three: no more than 64 requests
are in it, and those that were pushed are popped in that order (`HasQueue.fifo`).
-/

namespace Audioipc

structure RequestQueue (α : Type) where
  size : Nat
  queue : List α
  fits : queue.length ≤ size

inductive QueueAction (α : Type) where
  | push (request : α)
  | pop
  | drop

inductive QueueEvent (α : Type) where
  | pushed (request : α)
  | lost (request : α)
  | popped (request : α)
  | dropped

namespace QueueEvent

variable {α : Type}

def pushed? : QueueEvent α → Option α
  | .pushed request => some request
  | _ => none

def popped? : QueueEvent α → Option α
  | .popped request => some request
  | _ => none

def isDropped : QueueEvent α → Bool
  | .dropped => true
  | _ => false

/-- What a push into a queue of this length comes to. -/
def ofPush (size length : Nat) (request : α) : QueueEvent α :=
  if length < size then .pushed request else .lost request

end QueueEvent

namespace RequestQueue

variable {α : Type} {q q' : RequestQueue α}

def new (size : Nat) : RequestQueue α := ⟨size, [], Nat.zero_le _⟩

def push (q : RequestQueue α) (request : α) : RequestQueue α :=
  if h : q.queue.length < q.size then
    ⟨q.size, q.queue ++ [request], by rw [List.length_append]; exact h⟩
  else q

def pop (q : RequestQueue α) : RequestQueue α :=
  ⟨q.size, q.queue.tail, by rw [List.length_tail]; exact Nat.le_trans (Nat.sub_le ..) q.fits⟩

def step (q : RequestQueue α) : QueueAction α → Option (RequestQueue α)
  | .push request => some (q.push request)
  | .pop => some q.pop
  | .drop => some (new q.size)

def events (q : RequestQueue α) : QueueAction α → RequestQueue α → List (QueueEvent α)
  | .push request, _ => [.ofPush q.size q.queue.length request]
  | .pop, _ => q.queue.head?.toList.map .popped
  | .drop, _ => [.dropped]

theorem ofPush_kept (size length : Nat) (request : α) :
    (QueueEvent.ofPush size length request).isDropped = false := by
  unfold QueueEvent.ofPush
  split <;> rfl

theorem popped_kept {queue : List α} :
    ∀ e ∈ queue.head?.toList.map QueueEvent.popped, e.isDropped = false := by
  intro e he
  obtain ⟨r, -, rfl⟩ := List.mem_map.mp he
  rfl

theorem push_of_room (h : q.queue.length < q.size) (request : α) :
    (q.push request).queue = q.queue ++ [request] := by
  unfold push
  rw [dif_pos h]

theorem push_of_full (h : ¬ q.queue.length < q.size) (request : α) : q.push request = q := by
  unfold push
  rw [dif_neg h]

theorem push_size (request : α) : (q.push request).size = q.size := by
  unfold push
  split <;> rfl

/-- What was in the queue or has been pushed has been popped or is there. -/
theorem step_fifo {a : QueueAction α} (hs : q.step a = some q')
    (hkept : ∀ e ∈ q.events a q', e.isDropped = false) :
    q.queue ++ (q.events a q').filterMap QueueEvent.pushed? =
      (q.events a q').filterMap QueueEvent.popped? ++ q'.queue := by
  cases a with
  | push request =>
      cases hs
      by_cases hroom : q.queue.length < q.size
      · simp [events, QueueEvent.ofPush, if_pos hroom, push_of_room hroom, QueueEvent.pushed?,
          QueueEvent.popped?]
      · simp [events, QueueEvent.ofPush, if_neg hroom, push_of_full hroom, List.filterMap_cons,
          QueueEvent.pushed?, QueueEvent.popped?]
  | pop =>
      cases hs
      cases hqueue : q.queue <;>
        simp [events, pop, hqueue, QueueEvent.pushed?, QueueEvent.popped?]
  | drop => cases hkept _ (List.mem_singleton_self _)

theorem run_fifo {as : List (QueueAction α)} (hrun : Lts.runs step q as = some q')
    (hkept : ∀ e ∈ Lts.history step events q as, e.isDropped = false) :
    q.queue ++ (Lts.history step events q as).filterMap QueueEvent.pushed? =
      (Lts.history step events q as).filterMap QueueEvent.popped? ++ q'.queue := by
  induction as generalizing q with
  | nil =>
      obtain rfl := Option.some.inj hrun
      simp [Lts.history]
  | cons a as ih =>
      obtain ⟨q₁, hs, hrest⟩ := Lts.runs_cons_eq_some.mp hrun
      rw [Lts.history_cons as hs] at hkept ⊢
      have hfirst := step_fifo hs fun e he => hkept e (List.mem_append_left _ he)
      have hlast := ih hrest fun e he => hkept e (List.mem_append_right _ he)
      rw [List.filterMap_append, List.filterMap_append, ← List.append_assoc, hfirst,
        List.append_assoc, hlast, List.append_assoc]

/-- The queue after some steps that show these events. -/
def Becomes (q : RequestQueue α) (queue : List α) : List (QueueEvent α) → Prop :=
  Lts.Matches step events (fun q' => q'.size = q.size ∧ q'.queue = queue) q

theorem becomes_same (q : RequestQueue α) : q.Becomes q.queue [] := Lts.matches_none ⟨rfl, rfl⟩

theorem step_size {a : QueueAction α} (hs : q.step a = some q') : q'.size = q.size := by
  cases a with
  | push request =>
      cases hs
      exact push_size request
  | pop | drop =>
      cases hs
      rfl

theorem becomes_step {a : QueueAction α} (hs : q.step a = some q') :
    q.Becomes q'.queue (q.events a q') := Lts.matches_one hs ⟨step_size hs, rfl⟩

theorem becomes_pushed (q : RequestQueue α) (request : α) :
    q.Becomes (q.push request).queue [.ofPush q.size q.queue.length request] :=
  becomes_step (a := .push request) rfl

theorem becomes_popped (q : RequestQueue α) :
    q.Becomes q.queue.tail (q.queue.head?.toList.map .popped) := becomes_step (a := .pop) rfl

theorem becomes_dropped (q : RequestQueue α) : q.Becomes [] [.dropped] :=
  becomes_step (a := .drop) rfl

end RequestQueue

/-! ## Systems with a request queue -/

section HasQueue

variable {σ ι α : Type}

/-- A system in which `queue` is the request queue of an event loop, as long as
`I` holds. -/
structure HasQueue (step : σ → ι → Option σ) (I : σ → Prop) (queue : σ → List α)
    (events : σ → ι → σ → List (QueueEvent α)) : Prop where
  keeps : ∀ s a s', I s → step s a = some s' → I s'
  becomes : ∀ s a s', I s → step s a = some s' → ∀ q : RequestQueue α,
    q.size = EVENT_LOOP_INITIAL_CLIENTS → q.queue = queue s →
    q.Becomes (queue s') (events s a s')

variable {step : σ → ι → Option σ} {I : σ → Prop} {queue : σ → List α}
  {events : σ → ι → σ → List (QueueEvent α)}

theorem HasQueue.simulates (h : HasQueue step I queue events) :
    Lts.Simulates step events RequestQueue.step RequestQueue.events
      fun s q => I s ∧ q.size = EVENT_LOOP_INITIAL_CLIENTS ∧ q.queue = queue s := by
  intro s q a s' ⟨hI, hsize, hqueue⟩ hs
  obtain ⟨bs, q', hrun, hevents, hsize', hqueue'⟩ := h.becomes s a s' hI hs q hsize hqueue
  exact ⟨bs, q', hrun, hevents, h.keeps s a s' hI hs, hsize'.trans hsize, hqueue'⟩

/-- The queue has its bound in every run, and while it has not been dropped
what has been pushed is what has been popped and what is in it, in that order. -/
theorem HasQueue.fifo (h : HasQueue step I queue events) {as : List ι} {s s' : σ} (hI : I s)
    (hempty : queue s = []) (hrun : Lts.runs step s as = some s') :
    (queue s').length ≤ EVENT_LOOP_INITIAL_CLIENTS ∧
      ((∀ e ∈ Lts.history step events s as, e.isDropped = false) →
        (Lts.history step events s as).filterMap QueueEvent.pushed? =
          (Lts.history step events s as).filterMap QueueEvent.popped? ++ queue s') := by
  obtain ⟨bs, q, hruns, hhistory, -, hsize, hqueue⟩ :=
    h.simulates.history (t := .new EVENT_LOOP_INITIAL_CLIENTS) ⟨hI, rfl, hempty.symm⟩ hrun
  refine ⟨hqueue ▸ hsize ▸ q.fits, fun hkept => ?_⟩
  rw [← hhistory, ← hqueue]
  exact RequestQueue.run_fifo hruns (hhistory ▸ hkept)

end HasQueue

/-! ## The event loop and its callers -/

namespace EventLoop

variable {P Req Resp : Type} [Bincode Req] [AssociateHandleForMessage Req]
  [Bincode Resp] [AssociateHandleForMessage Resp]

/-- A loop that has stopped has no queue that a push could reach. -/
def pushEvents (l : EventLoop P Req Resp) (r : Request P) : List (QueueEvent (Request P)) :=
  match l.phase with
  | .stopped => []
  | _ => [.ofPush EVENT_LOOP_INITIAL_CLIENTS l.requests.length r]

def queueEvents (l : EventLoop P Req Resp) :
    LoopAction P Req → EventLoop P Req Resp → List (QueueEvent (Request P))
  | .pushWake id _, _ =>
      match l.entries id with
      | none => []
      | some e => l.pushEvents (.wakeConnection e.token)
  | .pushRequest r, _ => l.pushEvents r
  | .popRequest _, _ => l.requests.head?.toList.map .popped
  | _, _ => []

omit [Bincode Req] [Bincode Resp] in
theorem enter_requests (l : EventLoop P Req Resp) (token : Token) (phase : ConnId → LoopPhase)
    (start : ClientConnection P Req Resp → ClientConnection P Req Resp) :
    (l.enter token phase start).requests = l.requests := by
  unfold enter
  split
  · rfl
  · split <;> rfl

section Push

variable {l : EventLoop P Req Resp} {q : RequestQueue (Request P)} {r : Request P}

omit [Bincode Req] [Bincode Resp] in
theorem becomes_pushed (hsize : q.size = EVENT_LOOP_INITIAL_CLIENTS) (hqueue : q.queue = l.requests)
    (hroom : l.phase ≠ .stopped ∧ l.requests.length < EVENT_LOOP_INITIAL_CLIENTS) :
    q.Becomes (l.requests ++ [r]) (l.pushEvents r) := by
  have hpush := q.becomes_pushed r
  rw [RequestQueue.push_of_room (by rw [hsize, hqueue]; exact hroom.2), hsize, hqueue] at hpush
  unfold pushEvents
  split
  · exact absurd ‹_› hroom.1
  · exact hpush

omit [Bincode Req] [Bincode Resp] in
theorem becomes_lost (hsize : q.size = EVENT_LOOP_INITIAL_CLIENTS) (hqueue : q.queue = l.requests)
    (hroom : ¬ (l.phase ≠ .stopped ∧ l.requests.length < EVENT_LOOP_INITIAL_CLIENTS)) :
    q.Becomes l.requests (l.pushEvents r) := by
  unfold pushEvents
  split
  · rw [← hqueue]
    exact q.becomes_same
  · rename_i hup
    have hpush := q.becomes_pushed r
    rwa [RequestQueue.push_of_full (by rw [hsize, hqueue]; exact fun h => hroom ⟨hup, h⟩), hsize,
      hqueue] at hpush

end Push

theorem hasQueue (pipe : PipeOps P) : HasQueue (step pipe) (fun _ => True) requests
    (queueEvents : EventLoop P Req Resp → _) where
  keeps _ _ _ _ _ := trivial
  becomes l a l' _ hs q hsize hqueue := by
    have hpopped : ∀ {requests}, l.requests.tail = requests →
        q.Becomes requests (l.requests.head?.toList.map .popped) := by
      rintro _ rfl
      exact hqueue ▸ q.becomes_popped
    have hsame : q.Becomes l.requests [] := hqueue ▸ q.becomes_same
    cases step_cases hs with
    | polled | handled | left | removed | stayed | caller | rung => exact hsame
    | event hph =>
        rw [enter_requests]
        exact hsame
    | popped hph hrequests => exact hpopped (by rw [hrequests]; rfl)
    | woken hph hrequests =>
        rw [enter_requests]
        exact hpopped (by rw [hrequests]; rfl)
    | stopped hph hrequests | refused hph hrequests | bound hph hrequests =>
        exact hpopped (by rw [hrequests]; rfl)
    | pushedWake he _ _ hroom =>
        simp only [queueEvents, he]
        exact becomes_pushed hsize hqueue hroom
    | lostWake he _ _ hroom =>
        simp only [queueEvents, he]
        exact becomes_lost hsize hqueue hroom
    | pushedRequest hroom => exact becomes_pushed hsize hqueue hroom
    | lostRequest hroom => exact becomes_lost hsize hqueue hroom

omit [Bincode Req] [Bincode Resp] in
theorem pushEvents_kept (l : EventLoop P Req Resp) (r : Request P) :
    ∀ e ∈ l.pushEvents r, e.isDropped = false := by
  intro e he
  unfold pushEvents at he
  split at he
  · cases he
  · rw [List.mem_singleton.mp he]
    exact RequestQueue.ofPush_kept ..

omit [Bincode Req] [Bincode Resp] in
theorem queueEvents_kept (l : EventLoop P Req Resp) (a : LoopAction P Req)
    (l' : EventLoop P Req Resp) : ∀ e ∈ l.queueEvents a l', e.isDropped = false := by
  intro e he
  cases a with
  | pushWake id call =>
      simp only [queueEvents] at he
      split at he
      · cases he
      · exact pushEvents_kept l _ e he
  | pushRequest r => exact pushEvents_kept l r e he
  | popRequest fresh => exact RequestQueue.popped_kept e he
  | _ => cases he

theorem requests_fifo (pipe : PipeOps P) {as : List (LoopAction P Req)} {l : EventLoop P Req Resp}
    (hrun : Lts.runs (step pipe) new as = some l) :
    l.requests.length ≤ EVENT_LOOP_INITIAL_CLIENTS ∧
      (Lts.history (step pipe) queueEvents (new : EventLoop P Req Resp) as).filterMap
          QueueEvent.pushed? =
        (Lts.history (step pipe) queueEvents (new : EventLoop P Req Resp) as).filterMap
          QueueEvent.popped? ++ l.requests := by
  obtain ⟨hlength, hfifo⟩ := (hasQueue pipe).fifo trivial rfl hrun
  exact ⟨hlength, hfifo (Lts.forall_history queueEvents_kept)⟩

end EventLoop

/-! ## The drop of proxies -/

namespace ProxyDrops

def requests (s : ProxyDrops) : List (Request Unit) := s.queue.map QueuedRequest.request

def queueEvents (s : ProxyDrops) : ProxyAction → ProxyDrops → List (QueueEvent (Request Unit))
  | .pushWake _, _ =>
      [.ofPush EVENT_LOOP_INITIAL_CLIENTS s.requests.length (.wakeConnection s.token)]
  | .traffic r, _ => [.ofPush EVENT_LOOP_INITIAL_CLIENTS s.requests.length r]
  | .pop _, _ => s.requests.head?.toList.map .popped
  | _, _ => []

theorem handle_requests (s : ProxyDrops) (done : Bool) : (s.handle done).requests = s.requests := by
  unfold handle
  split <;> rfl

theorem becomes_push {s s₁ : ProxyDrops} {q : RequestQueue (Request Unit)} {r : Request Unit}
    (hsize : q.size = EVENT_LOOP_INITIAL_CLIENTS) (hqueue : q.queue = s.requests)
    (hsame : s₁.queue = s.queue) : q.Becomes (s₁.push r).requests
      [.ofPush EVENT_LOOP_INITIAL_CLIENTS s.requests.length r] := by
  have hpush := q.becomes_pushed r
  have hlength : s₁.queue.length = q.queue.length := by
    rw [hqueue, hsame, requests, List.length_map]
  rw [hsize, hqueue] at hpush
  unfold push
  split
  · rename_i hroom
    rw [RequestQueue.push_of_room (by rw [hsize, ← hlength]; exact hroom), hqueue] at hpush
    simpa only [requests, hsame, List.map_append, List.map_cons, List.map_nil] using hpush
  · rename_i hroom
    rw [RequestQueue.push_of_full (by rw [hsize, ← hlength]; exact hroom), hqueue] at hpush
    simpa only [requests, hsame] using hpush

theorem hasQueue : HasQueue step (fun _ => True) requests queueEvents where
  keeps _ _ _ _ _ := trivial
  becomes s a s' _ hs q hsize hqueue := by
    have hsame : q.Becomes s.requests [] := hqueue ▸ q.becomes_same
    cases a with
    | clone p | read p strong | release p =>
        simp only [step] at hs
        split at hs <;> cases hs
        exact hsame
    | pushWake p =>
        simp only [step] at hs
        split at hs <;> cases hs
        exact becomes_push hsize hqueue rfl
    | traffic r =>
        cases hs
        exact becomes_push hsize hqueue rfl
    | pop done =>
        simp only [step] at hs
        split at hs
        · rename_i r queue _ hrequests
          have hpopped := q.becomes_popped
          rw [hqueue] at hpopped
          have htail : s.requests.tail = queue.map QueuedRequest.request := by
            rw [requests, hrequests]
            rfl
          rw [htail] at hpopped
          split at hs
          · cases hs
            exact hpopped
          · cases hs
            split
            · rw [handle_requests]
              exact hpopped
            · exact hpopped
          · cases hs
            exact hpopped
        · cases hs
    | event done =>
        simp only [step] at hs
        split at hs <;> cases hs
        rw [handle_requests]
        exact hsame
    | exit =>
        cases hs
        exact hsame

theorem queueEvents_kept (s : ProxyDrops) (a : ProxyAction) (s' : ProxyDrops) :
    ∀ e ∈ s.queueEvents a s', e.isDropped = false := by
  intro e he
  cases a with
  | pushWake p | traffic r =>
      rw [List.mem_singleton.mp he]
      exact RequestQueue.ofPush_kept ..
  | pop done => exact RequestQueue.popped_kept e he
  | _ => cases he

theorem requests_fifo (token : Token) {as : List ProxyAction} {s : ProxyDrops}
    (hrun : Lts.runs step (bound token) as = some s) :
    s.requests.length ≤ EVENT_LOOP_INITIAL_CLIENTS ∧
      (Lts.history step queueEvents (bound token) as).filterMap QueueEvent.pushed? =
        (Lts.history step queueEvents (bound token) as).filterMap QueueEvent.popped? ++
          s.requests := by
  obtain ⟨hlength, hfifo⟩ := hasQueue.fifo trivial rfl hrun
  exact ⟨hlength, hfifo (Lts.forall_history queueEvents_kept)⟩

end ProxyDrops

/-! ## Calls on the handles -/

/-- What `EventLoopHandle` pushes. -/
def CallKind.request : CallKind → Request Unit
  | .addConnection | .addConnectionAsync => .addConnection ()
  | .shutdown => .shutdown
  | .wakeConnection token => .wakeConnection token

namespace SharedLoop

def requestOf (l : SharedLoop) (id : RequestId) : Option (Request Unit) :=
  (l.calls id).map (·.kind.request)

def requests (l : SharedLoop) : List (Request Unit) := l.queue.filterMap l.requestOf

def queueEvents (l : SharedLoop) :
    FallibleAction → SharedLoop → List (QueueEvent (Request Unit))
  | .shared (.push id), _ =>
      (l.requestOf id).toList.map (.ofPush EVENT_LOOP_INITIAL_CLIENTS l.requests.length)
  | .shared (.release _), l' | .shared .drop, l' => if l'.strong = 0 then [.dropped] else []
  | .take, _ => l.requests.head?.toList.map .popped
  | _, _ => []

variable {l l' : SharedLoop} {a : FallibleAction}

/-- Every call has begun, and those in the queue have pushed. -/
structure Numbered (l : SharedLoop) : Prop where
  fresh : l.Fresh
  entered : l.Entered

theorem numbered_new : new.Numbered :=
  ⟨fun _ _ => rfl, fun _ hin => absurd hin (not_or.mpr ⟨List.not_mem_nil, List.not_mem_nil⟩)⟩

theorem requestOf_eq {id : RequestId} {c : HandleCall} (hc : l.calls id = some c) :
    l.requestOf id = some c.kind.request := by
  rw [requestOf, hc]
  rfl

theorem Numbered.requestOf (h : l.Numbered) (hs : l.fallibleStep a = some l') {id : RequestId}
    {c : HandleCall} (hc : l.calls id = some c) : l'.requestOf id = l.requestOf id := by
  obtain ⟨c', hc', hkind⟩ := fallibleStep_kind h.fresh hs hc
  rw [requestOf_eq hc, requestOf_eq hc', hkind]

theorem Numbered.requests_length (h : l.Numbered) : l.requests.length = l.queue.length := by
  rw [SharedLoop.requests, List.length_filterMap_eq_countP, List.countP_eq_length]
  intro id hin
  obtain ⟨c, hc, -⟩ := h.entered id (Or.inl hin)
  rw [requestOf_eq hc]
  rfl

theorem Numbered.requests (h : l.Numbered) (hs : l.fallibleStep a = some l')
    {queue : List RequestId} (hin : ∀ id ∈ queue, id ∈ l.queue) :
    queue.filterMap l'.requestOf = queue.filterMap l.requestOf :=
  List.filterMap_congr fun id hid =>
    have ⟨_, hc, _⟩ := h.entered id (Or.inl (hin id hid))
    h.requestOf hs hc

theorem dropQueue_queue (h : l.dropQueue.strong = 0) : l.dropQueue.queue = [] := by
  unfold dropQueue at h ⊢
  split
  · rfl
  · rename_i hstrong
    rw [if_neg hstrong] at h
    exact absurd h hstrong

/-- Only the last reference takes the queue with it. -/
theorem releases_queue (hs : l.fallibleStep a = some l') (ha : a.releases = true) :
    (l'.strong = 0 ∧ l'.queue = []) ∨ (l'.strong ≠ 0 ∧ l'.queue = l.queue) := by
  have hdrop : ∃ l₁ : SharedLoop, l' = l₁.dropQueue ∧ l₁.queue = l.queue := by
    cases a with
    | shared a =>
        cases a with
        | release id =>
            simp only [fallibleStep, step] at hs
            split at hs <;> cases hs
            exact ⟨_, rfl, rfl⟩
        | drop =>
            simp only [fallibleStep, step] at hs
            split at hs <;> cases hs
            exact ⟨_, rfl, rfl⟩
        | _ => cases ha
    | _ => cases ha
  obtain ⟨l₁, rfl, hqueue⟩ := hdrop
  by_cases hstrong : l₁.dropQueue.strong = 0
  · exact Or.inl ⟨hstrong, dropQueue_queue hstrong⟩
  · refine Or.inr ⟨hstrong, ?_⟩
    unfold dropQueue at hstrong ⊢
    split
    · rename_i hzero
      rw [if_pos hzero] at hstrong
      exact absurd hzero hstrong
    · exact hqueue

theorem queue_kept (hs : l.fallibleStep a = some l') (hpush : ∀ id, a ≠ .shared (.push id))
    (htake : a ≠ .take) (hreleases : a.releases = false) : l'.queue = l.queue := by
  cases (fallibleStep_loop hs).queue with
  | kept _ hqueue | finished _ _ hqueue => exact hqueue
  | pushed => exact absurd rfl (hpush _)
  | taken => exact absurd rfl htake
  | dropped _ _ _ _ ha =>
      rw [hreleases] at ha
      cases ha

theorem push_queue {id : RequestId} (hs : l.fallibleStep (.shared (.push id)) = some l') :
    ∃ c, l.calls id = some c ∧
      l'.queue = if l.queue.length < EVENT_LOOP_INITIAL_CLIENTS then l.queue ++ [id]
        else l.queue := by
  cases step_cases (fallibleStep_shared hs).2 with
  | pushed hc =>
      refine ⟨_, hc, ?_⟩
      unfold push
      split <;> rfl

section Becomes

variable {q : RequestQueue (Request Unit)}

theorem becomes_kept (h : l.Numbered) (hs : l.fallibleStep a = some l')
    (hqueue : q.queue = l.requests) (hsame : l'.queue = l.queue) :
    q.Becomes l'.requests [] := by
  have hrequests : l'.requests = l.requests := by
    rw [requests, hsame]
    exact h.requests hs fun _ hin => hin
  rw [hrequests, ← hqueue]
  exact q.becomes_same

theorem becomes_releases (h : l.Numbered) (hs : l.fallibleStep a = some l')
    (hqueue : q.queue = l.requests) (ha : a.releases = true) :
    q.Becomes l'.requests (if l'.strong = 0 then [.dropped] else []) := by
  rcases releases_queue hs ha with ⟨hstrong, hempty⟩ | ⟨hstrong, hsame⟩
  · rw [if_pos hstrong, requests, hempty]
    exact q.becomes_dropped
  · rw [if_neg hstrong]
    exact becomes_kept h hs hqueue hsame

theorem becomes_push (h : l.Numbered) {id : RequestId}
    (hs : l.fallibleStep (.shared (.push id)) = some l')
    (hsize : q.size = EVENT_LOOP_INITIAL_CLIENTS) (hqueue : q.queue = l.requests) :
    q.Becomes l'.requests (l.queueEvents (.shared (.push id)) l') := by
  obtain ⟨c, hc, hpush⟩ := push_queue hs
  have hpushed := q.becomes_pushed c.kind.request
  have hlength : q.queue.length = l.queue.length := by rw [hqueue, h.requests_length]
  rw [hsize, hqueue] at hpushed
  simp only [queueEvents, requestOf_eq hc, Option.toList_some, List.map_cons, List.map_nil]
  split at hpush
  · rename_i hroom
    rw [RequestQueue.push_of_room (by rw [hsize, hlength]; exact hroom), hqueue] at hpushed
    rw [requests, hpush, List.filterMap_append, h.requests hs fun _ hin => hin,
      List.filterMap_cons, h.requestOf hs hc, requestOf_eq hc]
    exact hpushed
  · rename_i hroom
    rw [RequestQueue.push_of_full (by rw [hsize, hlength]; exact hroom), hqueue] at hpushed
    rw [requests, hpush, h.requests hs fun _ hin => hin]
    exact hpushed

theorem becomes_take (h : l.Numbered) (hs : l.fallibleStep .take = some l')
    (hqueue : q.queue = l.requests) : q.Becomes l'.requests (l.queueEvents .take l') := by
  have hpopped := q.becomes_popped
  rw [hqueue] at hpopped
  simp only [fallibleStep] at hs
  split at hs <;> cases hs
  · rename_i hempty
    have htail : l.requests.tail = l.requests := by
      rw [requests, hempty]
      rfl
    rw [htail] at hpopped
    exact hpopped
  · rename_i id queue _ hfull
    obtain ⟨c, hc, -⟩ := h.entered id (Or.inl (hfull ▸ List.mem_cons_self ..))
    have htail : l.requests.tail = queue.filterMap l.requestOf := by
      rw [requests, hfull, List.filterMap_cons, requestOf_eq hc]
      rfl
    rw [htail] at hpopped
    exact hpopped

end Becomes

theorem hasQueue : HasQueue fallibleStep Numbered requests queueEvents where
  keeps _ _ _ h hs := ⟨fresh_step h.fresh hs, entered_step h.fresh hs h.entered⟩
  becomes l a l' h hs q hsize hqueue := by
    cases a with
    | shared a =>
        cases a with
        | push id => exact becomes_push h hs hsize hqueue
        | release | drop => exact becomes_releases h hs hqueue rfl
        | _ => exact becomes_kept h hs hqueue (queue_kept hs (fun _ => nofun) nofun rfl)
    | take => exact becomes_take h hs hqueue
    | _ => exact becomes_kept h hs hqueue (queue_kept hs (fun _ => nofun) nofun rfl)

theorem requests_fifo {as : List FallibleAction} {l : SharedLoop}
    (hrun : Lts.runs fallibleStep new as = some l) :
    l.requests.length ≤ EVENT_LOOP_INITIAL_CLIENTS ∧
      ((∀ e ∈ Lts.history fallibleStep queueEvents new as, e.isDropped = false) →
        (Lts.history fallibleStep queueEvents new as).filterMap QueueEvent.pushed? =
          (Lts.history fallibleStep queueEvents new as).filterMap QueueEvent.popped? ++
            l.requests) := hasQueue.fifo numbered_new rfl hrun

end SharedLoop

end Audioipc

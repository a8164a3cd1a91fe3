import Audioipc.Lifecycle

/-!
# Subscriptions

The list of subscribers is shared by all `CubebServer`s of a thread. An
entry is a pair of callbacks and device types, and is removed by an equal
pair only. What a request does to the list and to the callbacks of its
server is `SubscriptionEffect`; what the drop of a server does to the list
is `drop_subscriptions`.

`ServerThread` is the thread with all its servers. The callbacks of a server
are an `Rc`, compared by address: an address is used again only when nothing
refers to it. `owner` records which server made the callbacks that are at an
address.

A server that is dropped leaves no entry behind exactly if all its entries
are for a single direction and have the callbacks that it still has
(`subscriptions_dropped`): the drop removes the pairs of the current
callbacks with `INPUT` and with `OUTPUT`, and no others.
-/

namespace Audioipc

def DeviceType.INPUT : DeviceType := ⟨true, false⟩

def DeviceType.OUTPUT : DeviceType := ⟨false, true⟩

abbrev Subscription := CallbacksId × DeviceType

/-- The list without the entries equal to one. -/
def unsubscribe (l : List Subscription) (cbs : CallbacksId) (devtype : DeviceType) :
    List Subscription :=
  l.filter fun (s, d) => s ≠ cbs ∨ d ≠ devtype

theorem mem_unsubscribe {l : List Subscription} {cbs : CallbacksId} {devtype : DeviceType}
    {e : Subscription} : e ∈ unsubscribe l cbs devtype ↔ e ∈ l ∧ e ≠ (cbs, devtype) := by
  obtain ⟨c, d⟩ := e
  simp [unsubscribe, List.mem_filter, imp_iff_not_or]

namespace CubebDeviceCollectionManager

variable (m : CubebDeviceCollectionManager) (out : RegisterOutcome) (context : Context)
  (server : CallbacksId) (devtype : DeviceType)

theorem register_servers :
    ((m.register out context server devtype).1 = .ok () ∧
      (m.register out context server devtype).2.2.servers = m.servers ++ [(server, devtype)]) ∨
    (∃ e, (m.register out context server devtype).1 = .error e ∧
      (m.register out context server devtype).2.2.servers = m.servers) := by
  unfold register
  split
  · split
    · exact Or.inr ⟨_, rfl, rfl⟩
    · exact Or.inl ⟨rfl, rfl⟩
  · exact Or.inl ⟨rfl, rfl⟩

theorem unregister_servers : (m.unregister out context server devtype).2.2.servers =
    unsubscribe m.servers server devtype := by
  unfold unregister
  dsimp only
  split <;> rfl

end CubebDeviceCollectionManager

def subscriptions : Option CubebContextState → List Subscription
  | none => []
  | some k => k.manager.servers

/-- cubeb has been initialised. -/
def ContextOk (k : Option CubebContextState) : Prop :=
  ∃ manager context, k = some ⟨manager, .ok context⟩

/-! ## What a request does -/

/-- The response to one of the two requests about the device collection. -/
def ClientMessage.answersSubscription : ClientMessage → Bool
  | .contextSetupDeviceCollectionCallback | .contextRegisteredDeviceCollectionChanged => true
  | _ => false

namespace CubebServer

variable {out : Outcome} {s s' : CubebServer} {k k' : Option CubebContextState}
  {msg : ServerMessage} {r : Item ClientMessage}

/-- What a request that is answered by `r` does to the callbacks of the
server and to the list. -/
inductive SubscriptionEffect (out : Outcome) (s s' : CubebServer) (l l' : List Subscription) :
    ServerMessage → Item ClientMessage → Prop
  | kept {msg : ServerMessage} {r : Item ClientMessage}
      (hcbs : s'.deviceCollectionChangeCallbacks = s.deviceCollectionChangeCallbacks)
      (hlist : l' = l) (hbody : r.body.answersSubscription = false) :
      SubscriptionEffect out s s' l l' msg r
  | setup {clientPipe : Handle}
      (hcbs : s'.deviceCollectionChangeCallbacks = some out.callbacks) (hlist : l' = l) :
      SubscriptionEffect out s s' l l' .contextSetupDeviceCollectionCallback
        (.owning .contextSetupDeviceCollectionCallback clientPipe rfl)
  | registered {bits : UInt32} {cbs : CallbacksId}
      (hhas : s.deviceCollectionChangeCallbacks = some cbs)
      (hcbs : s'.deviceCollectionChangeCallbacks = s.deviceCollectionChangeCallbacks)
      (hlist : l' = l ++ [(cbs, .fromBitsTruncate bits)]) :
      SubscriptionEffect out s s' l l' (.contextRegisterDeviceCollectionChanged bits true)
        (.plain .contextRegisteredDeviceCollectionChanged rfl)
  | unregistered {bits : UInt32} {cbs : CallbacksId} {r : Item ClientMessage}
      (hhas : s.deviceCollectionChangeCallbacks = some cbs)
      (hcbs : s'.deviceCollectionChangeCallbacks = s.deviceCollectionChangeCallbacks)
      (hlist : l' = unsubscribe l cbs (.fromBitsTruncate bits)) :
      SubscriptionEffect out s s' l l' (.contextRegisterDeviceCollectionChanged bits false) r

theorem processRegister_subscriptions {context : Context} {manager : CubebDeviceCollectionManager}
    {bits : UInt32} {enable : Bool} {served : Served}
    (h : s.processRegisterDeviceCollectionChanged out context manager (.fromBitsTruncate bits)
      enable = .ok served) :
    SubscriptionEffect out s served.server manager.servers served.manager.servers
      (.contextRegisterDeviceCollectionChanged bits enable) served.response := by
  unfold processRegisterDeviceCollectionChanged at h
  split at h
  · cases h
    exact .kept rfl rfl rfl
  · split at h
    · cases h
    · rename_i cbs hcbs
      cases enable with
      | true =>
          simp only [if_true] at h
          rcases manager.register_servers out.register context cbs
            (.fromBitsTruncate bits) with ⟨hr, hl⟩ | ⟨e, hr, hl⟩
          · rw [hr] at h
            cases h
            exact .registered hcbs rfl hl
          · rw [hr] at h
            cases h
            exact .kept rfl hl rfl
      | false =>
          simp only [Bool.false_eq_true, if_false] at h
          split at h <;> cases h <;>
            exact .unregistered hcbs rfl (CubebDeviceCollectionManager.unregister_servers ..)

theorem processStreamCreate_callbacks {params : StreamCreateParams}
    {o : Option (Item ClientMessage)} (h : s.processStreamCreate out params = .ok (o, s')) :
    s'.deviceCollectionChangeCallbacks = s.deviceCollectionChangeCallbacks ∧
      (o.getD (error .error)).body.answersSubscription = false := by
  unfold processStreamCreate at h
  split at h
  · cases h
    exact ⟨rfl, rfl⟩
  · dsimp only [bind, Except.bind] at h
    split at h
    · cases h
    · split at h
      · split at h <;> cases h
        exact ⟨rfl, rfl⟩
      · cases h
        exact ⟨rfl, rfl⟩

theorem processStreamInit_callbacks {token : Nat} {o : Option (Item ClientMessage)}
    (h : s.processStreamInit out token = .ok (o, s')) :
    s'.deviceCollectionChangeCallbacks = s.deviceCollectionChangeCallbacks ∧
      (o.getD (error .error)).body.answersSubscription = false := by
  unfold processStreamInit at h
  split at h
  · cases h
    exact ⟨rfl, rfl⟩
  · split at h
    · cases h
      exact ⟨rfl, rfl⟩
    · cases h
      exact ⟨rfl, rfl⟩
    · unfold initStream at h
      dsimp only [bind, Except.bind] at h
      (repeat' split at h) <;> cases h <;> exact ⟨rfl, rfl⟩

/-- Every request has one of these effects. -/
theorem processMsg_subscriptions {context : Context} {manager : CubebDeviceCollectionManager}
    {served : Served} (h : s.processMsg out context manager msg = .ok served) :
    SubscriptionEffect out s served.server manager.servers served.manager.servers msg
      served.response := by
  have hsame : served.server = s → served.manager = manager →
      served.response.body.answersSubscription = false →
      SubscriptionEffect out s served.server manager.servers served.manager.servers msg
        served.response :=
    fun hs hm hbody => .kept (by rw [hs]) (by rw [hm]) hbody
  cases msg with
  | streamCreate params =>
      simp only [processMsg, bind, Except.bind] at h
      split at h
      · cases h
      · rename_i hr
        cases h
        obtain ⟨hcbs, hbody⟩ := processStreamCreate_callbacks hr
        exact .kept hcbs rfl hbody
  | streamInit token =>
      simp only [processMsg, bind, Except.bind] at h
      split at h
      · cases h
      · rename_i hr
        cases h
        obtain ⟨hcbs, hbody⟩ := processStreamInit_callbacks hr
        exact .kept hcbs rfl hbody
  | streamDestroy token =>
      simp only [processMsg] at h
      split at h <;> cases h
      · exact hsame rfl rfl rfl
      · exact .kept rfl rfl rfl
  | contextGetDeviceEnumeration =>
      simp only [processMsg] at h
      split at h <;> cases h
      · exact hsame rfl rfl rfl
      · exact .kept rfl rfl rfl
  | contextSetupDeviceCollectionCallback =>
      simp only [processMsg] at h
      split at h <;> cases h
      · exact .setup rfl rfl
      · exact hsame rfl rfl rfl
  | contextRegisterDeviceCollectionChanged => exact processRegister_subscriptions h
  | clientConnect | promoteThreadToRealTime =>
      simp only [processMsg] at h
      split at h <;> cases h
      exact hsame rfl rfl rfl
  | clientDisconnect | contextGetBackendId =>
      cases h
      exact hsame rfl rfl rfl
  | contextGetMaxChannelCount | contextGetMinLatency | contextGetPreferredSampleRate
  | contextGetSupportedInputProcessingParams =>
      simp only [processMsg, pure, Except.pure, Except.ok.injEq] at h
      split at h <;> cases h <;> exact hsame rfl rfl rfl
  | streamStart | streamStop | streamGetPosition | streamGetLatency | streamGetInputLatency
  | streamSetVolume | streamSetName | streamGetCurrentDevice | streamSetInputMute
  | streamSetInputProcessingParams | streamRegisterDeviceChangeCallback =>
      obtain ⟨hs, -, hm, hbody⟩ := tryStream_served (P := (·.answersSubscription = false))
        (fun _ => rfl) (fun _ => rfl) h
      exact hsame hs hm hbody

/-- What `with_local_context` does first leaves the list alone, and cubeb
stays initialised. -/
theorem localContext_subscriptions (out : Outcome) (k : Option CubebContextState) :
    (localContext out k).manager.servers = subscriptions k ∧
      (∀ manager context, k = some ⟨manager, .ok context⟩ →
        localContext out k = ⟨manager, .ok context⟩) := by
  refine ⟨?_, fun manager context h => by rw [h]; rfl⟩
  unfold localContext
  cases k with
  | none =>
      dsimp only [Option.getD]
      split <;> rfl
  | some state =>
      dsimp only [Option.getD]
      split <;> rfl

/-- A request in which nothing panics, also when cubeb is not initialised. -/
theorem process_subscriptions
    (h : process out (s, k) msg = (.ok r, s', k')) :
    SubscriptionEffect out s s' (subscriptions k) (subscriptions k') msg r ∧
      (ContextOk k → ContextOk k') ∧
      (subscriptions k' ≠ [] → subscriptions k ≠ [] ∨ ContextOk k') := by
  obtain ⟨hlist, hok⟩ := localContext_subscriptions out k
  unfold process at h
  dsimp only at h
  split at h
  · rename_i e herr
    cases h
    refine ⟨.kept rfl hlist rfl, ?_, fun hne => Or.inl (hlist ▸ hne)⟩
    rintro ⟨manager, context, hk⟩
    rw [hok manager context hk] at herr
    cases herr
  · split at h
    · cases h
    · rename_i served hserved
      cases h
      rw [← hlist]
      exact ⟨processMsg_subscriptions hserved, fun _ => ⟨_, _, rfl⟩, fun _ => Or.inr ⟨_, _, rfl⟩⟩

/-- `CubebServer::drop`, with what the backend returns to its two calls. -/
def drop (s : CubebServer) (input output : RegisterOutcome) (k : Option CubebContextState) :
    Option CubebContextState :=
  match s.deviceCollectionChangeCallbacks, k with
  | some cbs, some ⟨manager, .ok context⟩ =>
      let (_, context, manager) := manager.unregister input context cbs .INPUT
      let (_, context, manager) := manager.unregister output context cbs .OUTPUT
      some ⟨manager, .ok context⟩
  | _, k => k

/-- The list after the drop of a server with these callbacks. -/
def withoutCallbacks (l : List Subscription) : Option CallbacksId → List Subscription
  | none => l
  | some cbs => unsubscribe (unsubscribe l cbs .INPUT) cbs .OUTPUT

/-- A drop removes the current callbacks, each for one direction. -/
theorem drop_subscriptions (s : CubebServer) (input output : RegisterOutcome)
    (hk : subscriptions k ≠ [] → ContextOk k) :
    (ContextOk k → ContextOk (s.drop input output k)) ∧
      subscriptions (s.drop input output k) =
        withoutCallbacks (subscriptions k) s.deviceCollectionChangeCallbacks := by
  unfold drop
  cases s.deviceCollectionChangeCallbacks with
  | none => exact ⟨fun h => h, rfl⟩
  | some cbs =>
      by_cases hok : ContextOk k
      · obtain ⟨manager, context, rfl⟩ := hok
        refine ⟨fun _ => ⟨_, _, rfl⟩, ?_⟩
        simp only [subscriptions, CubebDeviceCollectionManager.unregister_servers, withoutCallbacks]
      · have hnil : subscriptions k = [] := by
          by_contra hne
          exact hok (hk hne)
        refine ⟨fun h => absurd h hok, ?_⟩
        split
        · rename_i manager context _
          exact absurd ⟨manager, context, rfl⟩ hok
        · rw [hnil]
          rfl

end CubebServer

theorem mem_withoutCallbacks {l : List Subscription} {cbs : Option CallbacksId}
    {e : Subscription} : e ∈ CubebServer.withoutCallbacks l cbs ↔
      e ∈ l ∧ ¬ (cbs = some e.1 ∧ (e.2 = .INPUT ∨ e.2 = .OUTPUT)) := by
  obtain ⟨c, d⟩ := e
  cases cbs with
  | none => exact ⟨fun h => ⟨h, nofun⟩, fun h => h.1⟩
  | some c' =>
      simp only [CubebServer.withoutCallbacks, mem_unsubscribe, ne_eq, Prod.mk.injEq,
        Option.some.injEq]
      constructor
      · rintro ⟨⟨hmem, hin⟩, hout⟩
        refine ⟨hmem, ?_⟩
        rintro ⟨rfl, rfl | rfl⟩
        · exact hin ⟨rfl, rfl⟩
        · exact hout ⟨rfl, rfl⟩
      · rintro ⟨hmem, hne⟩
        exact ⟨⟨hmem, fun ⟨hc, hd⟩ => hne ⟨hc.symm, Or.inl hd⟩⟩,
          fun ⟨hc, hd⟩ => hne ⟨hc.symm, Or.inr hd⟩⟩

theorem filter_unsubscribe {l : List Subscription} {p : Subscription → Bool} {cbs : CallbacksId}
    {devtype : DeviceType} (hp : p (cbs, devtype) = false) :
    (unsubscribe l cbs devtype).filter p = l.filter p := by
  unfold unsubscribe
  rw [List.filter_filter]
  refine List.filter_congr fun e _ => ?_
  by_cases he : e = (cbs, devtype)
  · rw [he, hp]; rfl
  · obtain ⟨c, d⟩ := e
    have hne : c ≠ cbs ∨ d ≠ devtype := by
      by_contra hboth
      rw [not_or, not_not, not_not] at hboth
      exact he (Prod.ext hboth.1 hboth.2)
    simp [hne]

/-! ## The servers of a thread -/

/-- A server, as opposed to the address of its callbacks. -/
abbrev ServerId := Nat

/-- `next` is how many servers there have been, and `owner` the server that
made the callbacks at an address. -/
structure ServerThread where
  servers : ServerId → Option CubebServer
  next : ServerId
  context : Option CubebContextState
  owner : CallbacksId → ServerId

inductive ThreadAction where
  | connect (remotePid : Nat) (shmAreaSize : UInt64)
  | request (id : ServerId) (out : Outcome) (msg : ServerMessage)
  | drop (id : ServerId) (input output : RegisterOutcome)

namespace ServerThread

def new : ServerThread := ⟨fun _ => none, 0, none, fun _ => 0⟩

def list (t : ServerThread) : List Subscription := subscriptions t.context

def callbacks (t : ServerThread) (id : ServerId) : Option CallbacksId :=
  (t.servers id).bind CubebServer.deviceCollectionChangeCallbacks

/-- Nothing refers to callbacks at this address. -/
def Fresh (t : ServerThread) (cbs : CallbacksId) : Prop :=
  (∀ e ∈ t.list, e.1 ≠ cbs) ∧ ∀ id < t.next, t.callbacks id ≠ some cbs

instance (t : ServerThread) (cbs : CallbacksId) : Decidable (t.Fresh cbs) :=
  inferInstanceAs (Decidable (_ ∧ _))

/-- A request in which nothing panics, and what it is answered with. -/
def request (t : ServerThread) (id : ServerId) (out : Outcome) (msg : ServerMessage) :
    Option (Item ClientMessage × ServerThread) :=
  match t.servers id with
  | none => none
  | some s =>
      if t.Fresh out.callbacks then
        match CubebServer.process out (s, t.context) msg with
        | (.error _, _) => none
        | (.ok r, s', context) => some (r, { t with
            servers := Function.update t.servers id (some s')
            context
            owner :=
              if s'.deviceCollectionChangeCallbacks = some out.callbacks then
                Function.update t.owner out.callbacks id
              else t.owner })
      else none

def step (t : ServerThread) : ThreadAction → Option ServerThread
  | .connect remotePid shmAreaSize => some { t with
      servers := Function.update t.servers t.next (some (.new remotePid shmAreaSize))
      next := t.next + 1 }
  | .request id out msg => (t.request id out msg).map Prod.snd
  | .drop id input output =>
      match t.servers id with
      | none => none
      | some s => some { t with
          servers := Function.update t.servers id none
          context := s.drop input output t.context }

structure Inv (t : ServerThread) : Prop where
  bound : ∀ id s, t.servers id = some s → id < t.next
  owned : ∀ id cbs, t.callbacks id = some cbs → t.owner cbs = id
  ok : t.list ≠ [] → ContextOk t.context

variable {t t' : ServerThread}

theorem inv_new : new.Inv := ⟨nofun, nofun, fun h => absurd rfl h⟩

/-- What a request does to the thread: only the server it is for changes,
and only addresses nothing referred to change their owner. -/
structure Requested (t t' : ServerThread) (id : ServerId) (out : Outcome) (msg : ServerMessage)
    (r : Item ClientMessage) : Prop where
  known : ∃ s s', t.servers id = some s ∧
    t'.servers = Function.update t.servers id (some s') ∧
    CubebServer.SubscriptionEffect out s s' t.list t'.list msg r
  fresh : t.Fresh out.callbacks
  next : t'.next = t.next
  owner : ∀ cbs, cbs ≠ out.callbacks → t'.owner cbs = t.owner cbs
  made : t'.callbacks id = some out.callbacks → t'.owner out.callbacks = id
  ok : t'.list ≠ [] → t.list ≠ [] ∨ ContextOk t'.context
  stays : ContextOk t.context → ContextOk t'.context

theorem request_requested {id : ServerId} {out : Outcome} {msg : ServerMessage}
    {r : Item ClientMessage} (h : t.request id out msg = some (r, t')) :
    Requested t t' id out msg r := by
  unfold request at h
  split at h
  · cases h
  · rename_i s hs
    split at h
    · rename_i hfresh
      split at h
      · cases h
      · rename_i r' s' context hprocess
        cases h
        obtain ⟨heffect, hstays, hok⟩ := CubebServer.process_subscriptions hprocess
        refine ⟨⟨s, s', hs, rfl, heffect⟩, hfresh, rfl, fun cbs hne => ?_, fun hmade => ?_, hok,
          hstays⟩
        · dsimp only
          split
          · exact Function.update_of_ne hne ..
          · rfl
        · simp only [callbacks, Function.update_self, Option.bind_some] at hmade
          simp [hmade]
    · cases h

theorem Requested.callbacks_other {id id' : ServerId} {out : Outcome} {msg : ServerMessage}
    {r : Item ClientMessage} (h : Requested t t' id out msg r) (hne : id' ≠ id) :
    t'.callbacks id' = t.callbacks id' := by
  obtain ⟨s, s', -, hservers, -⟩ := h.known
  simp [callbacks, hservers, hne]

theorem Requested.callbacks_self {id : ServerId} {out : Outcome} {msg : ServerMessage}
    {r : Item ClientMessage} (h : Requested t t' id out msg r) :
    t'.callbacks id = t.callbacks id ∨ t'.callbacks id = some out.callbacks := by
  obtain ⟨s, s', hs, hservers, heffect⟩ := h.known
  have hold : t.callbacks id = s.deviceCollectionChangeCallbacks := by simp [callbacks, hs]
  have hnew : t'.callbacks id = s'.deviceCollectionChangeCallbacks := by simp [callbacks, hservers]
  rw [hold, hnew]
  cases heffect with
  | setup hcbs => exact Or.inr hcbs
  | kept hcbs | registered _ hcbs | unregistered _ hcbs => exact Or.inl hcbs

theorem Inv.request (h : t.Inv) {id : ServerId} {out : Outcome} {msg : ServerMessage}
    {r : Item ClientMessage} (hr : Requested t t' id out msg r) : t'.Inv := by
  obtain ⟨s, s', hs, hservers, -⟩ := hr.known
  refine ⟨fun id' s₁ hs₁ => ?_, fun id' cbs hcbs => ?_, fun hne => ?_⟩
  · rw [hr.next]
    by_cases hid : id' = id
    · rw [hid]; exact h.bound id s hs
    · rw [hservers, Function.update_of_ne hid] at hs₁
      exact h.bound id' s₁ hs₁
  · have hold : t.callbacks id' = some cbs → t'.owner cbs = id' := by
      intro hcbs'
      obtain ⟨s₁, hs₁, -⟩ := Option.bind_eq_some_iff.mp hcbs'
      have hused : cbs ≠ out.callbacks := by
        rintro rfl
        exact hr.fresh.2 id' (h.bound id' s₁ hs₁) hcbs'
      rw [hr.owner cbs hused]
      exact h.owned id' cbs hcbs'
    by_cases hid : id' = id
    · subst hid
      rcases hr.callbacks_self with hsame | hmade
      · exact hold (hsame ▸ hcbs)
      · obtain rfl : out.callbacks = cbs := Option.some.inj (hmade.symm.trans hcbs)
        exact hr.made hmade
    · exact hold (hr.callbacks_other hid ▸ hcbs)
  · rcases hr.ok hne with hne' | hok
    · exact hr.stays (h.ok hne')
    · exact hok

/-- What a drop does to the thread. -/
theorem drop_dropped (h : t.Inv) {id : ServerId} {input output : RegisterOutcome}
    (hs : t.step (.drop id input output) = some t') :
    t'.servers = Function.update t.servers id none ∧ t'.next = t.next ∧ t'.owner = t.owner ∧
      t'.list = CubebServer.withoutCallbacks t.list (t.callbacks id) ∧
      (ContextOk t.context → ContextOk t'.context) := by
  simp only [step] at hs
  split at hs
  · cases hs
  · rename_i s hsome
    cases hs
    obtain ⟨hok, hlist⟩ := CubebServer.drop_subscriptions s input output h.ok
    have hcbs : t.callbacks id = s.deviceCollectionChangeCallbacks := by simp [callbacks, hsome]
    exact ⟨rfl, rfl, rfl, hcbs ▸ hlist, hok⟩

theorem step_inv (h : t.Inv) {a : ThreadAction} (hs : t.step a = some t') : t'.Inv := by
  cases a with
  | connect remotePid shmAreaSize =>
      cases hs
      refine ⟨fun id s hid => ?_, fun id cbs hcbs => ?_, h.ok⟩
      · by_cases hnext : id = t.next
        · exact hnext ▸ Nat.lt_succ_self _
        · simp only [Function.update_of_ne hnext] at hid
          exact Nat.lt_succ_of_lt (h.bound id s hid)
      · by_cases hnext : id = t.next
        · simp [callbacks, hnext, CubebServer.new] at hcbs
        · simp only [callbacks, Function.update_of_ne hnext] at hcbs
          exact h.owned id cbs hcbs
  | request id out msg =>
      obtain ⟨⟨r, t₁⟩, hr, rfl⟩ := Option.map_eq_some_iff.mp hs
      exact h.request (request_requested hr)
  | drop id input output =>
      obtain ⟨hservers, hnext, howner, hlist, hok⟩ := drop_dropped h hs
      refine ⟨fun id' s hid' => ?_, fun id' cbs hcbs => ?_, fun hne => hok (h.ok ?_)⟩
      · rw [hnext]
        by_cases hid : id' = id
        · rw [hservers, hid, Function.update_self] at hid'; cases hid'
        · rw [hservers, Function.update_of_ne hid] at hid'
          exact h.bound id' s hid'
      · by_cases hid : id' = id
        · simp [callbacks, hservers, hid] at hcbs
        · simp only [callbacks, hservers, Function.update_of_ne hid] at hcbs
          rw [howner]
          exact h.owned id' cbs hcbs
      · obtain ⟨e, he⟩ := List.exists_mem_of_ne_nil _ hne
        exact List.ne_nil_of_mem (mem_withoutCallbacks.mp (hlist ▸ he)).1

theorem runs_inv {as : List ThreadAction} (hrun : Lts.runs step new as = some t) : t.Inv :=
  Lts.runs_invariant (fun _ _ _ h hs => step_inv h hs) inv_new hrun

/-! ## What a dropped server leaves -/

/-- All entries of a server are for one direction, with its callbacks. -/
def SingleAndCurrent (t : ServerThread) (id : ServerId) : Prop :=
  ∀ e ∈ t.list, t.owner e.1 = id →
    t.callbacks id = some e.1 ∧ (e.2 = .INPUT ∨ e.2 = .OUTPUT)

/-- The entries of a server that is dropped are all of the kind that its
drop removes. -/
def DropsAll (t : ServerThread) : ThreadAction → Prop
  | .drop id _ _ => t.SingleAndCurrent id
  | _ => True

theorem drop_leaves_iff (h : t.Inv) {id : ServerId} {input output : RegisterOutcome}
    (hs : t.step (.drop id input output) = some t') :
    ((∀ e ∈ t'.list, t'.owner e.1 ≠ id) ↔ t.SingleAndCurrent id) ∧
      (t'.list.filter fun e => t'.owner e.1 ≠ id) = t.list.filter fun e => t.owner e.1 ≠ id := by
  obtain ⟨-, -, howner, hlist, -⟩ := drop_dropped h hs
  rw [hlist, howner]
  constructor
  · constructor
    · intro hgone e he hid
      by_contra hkept
      exact hgone e (mem_withoutCallbacks.mpr ⟨he, hkept⟩) hid
    · intro hall e he hid
      obtain ⟨hmem, hkept⟩ := mem_withoutCallbacks.mp he
      exact hkept (hall e hmem hid)
  · cases hcbs : t.callbacks id with
    | none => rfl
    | some cbs =>
        have hown : ∀ devtype : DeviceType,
            (fun e : Subscription => decide (t.owner e.1 ≠ id)) (cbs, devtype) = false :=
          fun _ => by simp [h.owned id cbs hcbs]
        exact (filter_unsubscribe (hown _)).trans (filter_unsubscribe (hown _))

/-- Every entry is of a server that is there. -/
def Owned (t : ServerThread) : Prop := ∀ e ∈ t.list, t.servers (t.owner e.1) ≠ none

theorem step_owned (h : t.Inv) (howned : t.Owned) {a : ThreadAction} (hdrop : t.DropsAll a)
    (hs : t.step a = some t') : t'.Owned := by
  cases a with
  | connect remotePid shmAreaSize =>
      cases hs
      intro e he
      by_cases hnext : t.owner e.1 = t.next
      · simp [hnext]
      · simp only [ne_eq, Function.update_of_ne hnext]
        exact howned e he
  | request id out msg =>
      obtain ⟨⟨r, t₁⟩, hr, rfl⟩ := Option.map_eq_some_iff.mp hs
      have hr := request_requested hr
      obtain ⟨s, s', hsome, hservers, heffect⟩ := hr.known
      have hold : ∀ e : Subscription, e.1 ≠ out.callbacks → t.servers (t.owner e.1) ≠ none →
          t₁.servers (t₁.owner e.1) ≠ none := by
        intro e hne hthere
        rw [hr.owner e.1 hne, hservers]
        by_cases hid : t.owner e.1 = id
        · simp [hid]
        · rwa [Function.update_of_ne hid]
      have hkept : ∀ e ∈ t.list, t₁.servers (t₁.owner e.1) ≠ none := fun e he =>
        hold e (hr.fresh.1 e he) (howned e he)
      intro e he
      cases heffect with
      | kept _ hlist | setup _ hlist => exact hkept e (hlist ▸ he)
      | unregistered _ _ hlist => exact hkept e (mem_unsubscribe.mp (hlist ▸ he)).1
      | registered hhas _ hlist =>
          rw [hlist] at he
          rcases List.mem_append.mp he with hin | hnew
          · exact hkept e hin
          · have hcbs : t.callbacks id = some e.1 := by
              rw [List.mem_singleton.mp hnew]
              simp [callbacks, hsome, hhas]
            refine hold e (fun heq => ?_) ?_
            · exact hr.fresh.2 id (h.bound id s hsome) (heq ▸ hcbs)
            · rw [h.owned id e.1 hcbs, hsome]
              nofun
  | drop id input output =>
      obtain ⟨hservers, -, howner, hlist, -⟩ := drop_dropped h hs
      have hgone := ((drop_leaves_iff h hs).1).mpr hdrop
      intro e he
      have hne := hgone e he
      rw [howner] at hne ⊢
      rw [hservers, Function.update_of_ne hne]
      exact howned e (mem_withoutCallbacks.mp (hlist ▸ he)).1

/-- A dropped server leaves no entry exactly if all its entries were for one
direction and with its last callbacks; the entries of other servers are
never touched; and if all servers are dropped so, the list is empty. -/
theorem subscriptions_dropped {as : List ThreadAction}
    (hrun : Lts.runs step new as = some t) :
    (∀ id input output t', t.step (.drop id input output) = some t' →
      ((∀ e ∈ t'.list, t'.owner e.1 ≠ id) ↔ t.SingleAndCurrent id) ∧
      (t'.list.filter fun e => t'.owner e.1 ≠ id) = t.list.filter fun e => t.owner e.1 ≠ id) ∧
    (Lts.Within step DropsAll new as → (∀ id, t.servers id = none) → t.list = []) := by
  refine ⟨fun id input output t' hs => drop_leaves_iff (runs_inv hrun) hs, fun hdrops hnone => ?_⟩
  have howned : t.Inv ∧ t.Owned := Lts.runs_within_invariant (I := fun t => t.Inv ∧ t.Owned)
    (fun _ _ _ h hG hs => ⟨step_inv h.1 hs, step_owned h.1 h.2 hG hs⟩)
    ⟨inv_new, fun e he => absurd he List.not_mem_nil⟩ hdrops hrun
  by_contra hne
  obtain ⟨e, he⟩ := List.exists_mem_of_ne_nil _ hne
  exact howned.2 e he (hnone _)

/-! ## Two runs -/

/-- A client that sets its callbacks up, at address 7, and registers them
for these device types. -/
def registerScript (devtypes : List UInt32) : List ThreadAction :=
  let out : Outcome := { Outcome.success 0 with callbacks := 7 }
  let later : Outcome := { Outcome.success 0 with callbacks := 8 }
  .connect 1 0 :: .request 0 out .contextSetupDeviceCollectionCallback ::
    devtypes.map fun bits => .request 0 later (.contextRegisterDeviceCollectionChanged bits true)

/-- Both directions, one after the other. -/
theorem subscriptions_dropped_run :
    ∃ t t', Lts.runs step new (registerScript [1, 2]) = some t ∧
      t.list = [(7, .INPUT), (7, .OUTPUT)] ∧
      t.step (.drop 0 ⟨.ok (), .ok ()⟩ ⟨.ok (), .ok ()⟩) = some t' ∧
      ∀ e ∈ t'.list, t'.owner e.1 ≠ 0 := by
  have hrun : (Lts.runs step new (registerScript [1, 2])).map (fun t =>
      (t.list, t.callbacks 0, (t.step (.drop 0 ⟨.ok (), .ok ()⟩ ⟨.ok (), .ok ()⟩)).isSome)) =
      some ([(7, .INPUT), (7, .OUTPUT)], some 7, true) := by decide +kernel
  obtain ⟨t, ht, heq⟩ := Option.map_eq_some_iff.mp hrun
  simp only [Prod.mk.injEq] at heq
  obtain ⟨hlist, hcbs, hdrop⟩ := heq
  obtain ⟨t', ht'⟩ := Option.isSome_iff_exists.mp hdrop
  refine ⟨t, t', ht, hlist, ht', ((subscriptions_dropped ht).1 0 _ _ t' ht').1.mpr fun e he _ => ?_⟩
  rw [hlist, List.mem_cons, List.mem_singleton] at he
  rcases he with rfl | rfl
  · exact ⟨hcbs, Or.inl rfl⟩
  · exact ⟨hcbs, Or.inr rfl⟩

/-- Both directions at once: the entry outlives its server, which was the
only one. -/
theorem leftover_subscription_run :
    (Lts.runs step new (registerScript [3] ++ [.drop 0 ⟨.ok (), .ok ()⟩ ⟨.ok (), .ok ()⟩])).map
      (fun t => (t.list, t.owner 7, t.next, (t.servers 0).isSome)) =
    some ([(7, ⟨true, true⟩)], 0, 1, false) := by
  decide +kernel

end ServerThread

end Audioipc

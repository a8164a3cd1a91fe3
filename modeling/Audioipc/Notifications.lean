import Audioipc.Subscriptions
import Audioipc.ClientStream

/-!
# Notifications of the device collection

A change of the device collection goes from the backend to the manager, from
there to every entry of its list that contains the direction, and in the
client of that entry to the callback of the direction. The client has one
callback for each direction, the list has one entry for each `register` that
was not taken back with the same device types.

So a client hears of a change once if one entry contains the direction, and
every `register` adds one. `subscribed` counts them; a call leaves the count
right exactly if no entry contained a direction of its device types before
(`delivered_once`).
-/

namespace Audioipc

inductive Direction where
  | input
  | output
deriving Repr, DecidableEq

def Direction.devtype : Direction → DeviceType
  | .input => .INPUT
  | .output => .OUTPUT

instance {p : Direction → Prop} [DecidablePred p] : Decidable (∀ d, p d) :=
  decidable_of_iff (p .input ∧ p .output)
    ⟨fun ⟨hin, hout⟩ d => match d with | .input => hin | .output => hout,
     fun h => ⟨h .input, h .output⟩⟩

def DeviceType.bits (devtype : DeviceType) : UInt32 :=
  (if devtype.input then 1 else 0) ||| if devtype.output then 2 else 0

def DeviceType.contains (devtype other : DeviceType) : Bool :=
  (!other.input || devtype.input) && (!other.output || devtype.output)

@[simp] theorem DeviceType.fromBitsTruncate_bits (devtype : DeviceType) :
    DeviceType.fromBitsTruncate devtype.bits = devtype := by
  obtain ⟨_ | _, _ | _⟩ := devtype <;> decide

inductive DeviceCollectionReq where
  | deviceChange (deviceType : UInt32)
deriving Repr, DecidableEq

inductive DeviceCollectionResp where
  | deviceChange
deriving Repr, DecidableEq

/-- The RPCs of the manager, each with the callbacks that it is made on. -/
def CubebDeviceCollectionManager.deviceCollectionChangedCallback
    (m : CubebDeviceCollectionManager) (deviceType : UInt32) :
    List (CallbacksId × DeviceCollectionReq) :=
  m.servers.filterMap fun (s, d) =>
    if d.contains (.fromBitsTruncate deviceType) then some (s, .deviceChange deviceType) else none

/-! ## The client -/

/-- A call of a `cubeb_device_collection_changed_callback`: its address and
the `user_ptr`. -/
abbrev Notification := Nat × Nat

/-- A null callback is `none`. -/
structure DeviceCollectionCallbacks where
  inputCb : Option Nat
  inputUserPtr : Nat
  outputCb : Option Nat
  outputUserPtr : Nat
deriving Repr, DecidableEq

namespace DeviceCollectionCallbacks

def default : DeviceCollectionCallbacks := ⟨none, 0, none, 0⟩

def set (cbs : DeviceCollectionCallbacks) (devtype : DeviceType) (callback : Option Nat)
    (userPtr : Nat) : DeviceCollectionCallbacks :=
  let cbs :=
    if devtype.contains .INPUT then { cbs with inputCb := callback, inputUserPtr := userPtr }
    else cbs
  if devtype.contains .OUTPUT then { cbs with outputCb := callback, outputUserPtr := userPtr }
  else cbs

def notification (cbs : DeviceCollectionCallbacks) : Direction → Option Notification
  | .input => cbs.inputCb.map fun cb => (cb, cbs.inputUserPtr)
  | .output => cbs.outputCb.map fun cb => (cb, cbs.outputUserPtr)

theorem notification_set (cbs : DeviceCollectionCallbacks) (devtype : DeviceType)
    (callback : Option Nat) (userPtr : Nat) (d : Direction) :
    (cbs.set devtype callback userPtr).notification d =
      if devtype.contains d.devtype then callback.map fun cb => (cb, userPtr)
      else cbs.notification d := by
  by_cases hin : devtype.contains .INPUT <;> by_cases hout : devtype.contains .OUTPUT <;>
    cases d <;> simp [set, hin, hout, notification, Direction.devtype]

end DeviceCollectionCallbacks

/-- `DeviceCollectionServer::process`, with the callbacks it calls. -/
def DeviceCollectionServer.process (callbacks : DeviceCollectionCallbacks) :
    DeviceCollectionReq → DeviceCollectionResp × List Notification
  | .deviceChange deviceType =>
      let devtype := DeviceType.fromBitsTruncate deviceType
      (.deviceChange,
        (if devtype.contains .INPUT then
          (callbacks.inputCb.map fun cb => (cb, callbacks.inputUserPtr)).toList
        else []) ++
        if devtype.contains .OUTPUT then
          (callbacks.outputCb.map fun cb => (cb, callbacks.outputUserPtr)).toList
        else [])

theorem DeviceCollectionServer.process_direction (callbacks : DeviceCollectionCallbacks)
    (d : Direction) : (process callbacks (.deviceChange d.devtype.bits)).2 =
      (callbacks.notification d).toList := by
  have hcontains : DeviceType.INPUT.contains .OUTPUT = false ∧
      DeviceType.OUTPUT.contains .INPUT = false ∧ DeviceType.INPUT.contains .INPUT = true ∧
      DeviceType.OUTPUT.contains .OUTPUT = true := by decide
  obtain ⟨hio, hoi, hii, hoo⟩ := hcontains
  cases d with
  | input => simp [process, Direction.devtype, hio, hii, DeviceCollectionCallbacks.notification]
  | output => simp [process, Direction.devtype, hoi, hoo, DeviceCollectionCallbacks.notification]

/-- A client with the thread of its server; `bound` are the server's callbacks
whose RPCs the bound `DeviceCollectionServer` gets. -/
structure DeviceClient where
  thread : ServerThread
  id : ServerId
  deviceCollectionRpc : Bool
  deviceCollectionCallbacks : DeviceCollectionCallbacks
  bound : Option CallbacksId

/-- What the requests of a call meet, on both sides, and whether `bind_server`
returns `Ok`. -/
structure RegisterCall where
  setup : Outcome
  bindServer : Bool
  register : Outcome

def setupDeviceCollectionCallback (r : Item ClientMessage) : Option Unit :=
  match r.body with
  | .contextSetupDeviceCollectionCallback => some ()
  | _ => none

def registeredDeviceCollectionChanged (r : Item ClientMessage) : Option Unit :=
  match r.body with
  | .contextRegisteredDeviceCollectionChanged => some ()
  | _ => none

/-- Other responses are errors to the client. -/
theorem answers_of_setup {r : Item ClientMessage} {u : Unit}
    (h : sendRecv r setupDeviceCollectionCallback = .ok u) : r.body.answersSubscription = true := by
  have hr := sendRecv_ok h
  unfold setupDeviceCollectionCallback at hr
  split at hr
  · rename_i heq
    rw [heq]
    rfl
  · cases hr

theorem answers_of_registered {r : Item ClientMessage} {u : Unit}
    (h : sendRecv r registeredDeviceCollectionChanged = .ok u) :
    r.body.answersSubscription = true := by
  have hr := sendRecv_ok h
  unfold registeredDeviceCollectionChanged at hr
  split at hr
  · rename_i heq
    rw [heq]
    rfl
  · cases hr

/-- A call of the client, or something else in the server's thread. -/
inductive DeviceAction where
  | call (out : RegisterCall) (devtype : DeviceType) (callback : Option Nat) (userPtr : Nat)
  | other (a : ThreadAction)

namespace DeviceAction

/-- What a call registers for a direction, if its device types contain it. -/
def registers (d : Direction) : DeviceAction → Option (Option Notification)
  | .call _ devtype callback userPtr =>
      if devtype.contains d.devtype then some (callback.map fun cb => (cb, userPtr)) else none
  | .other _ => none

/-- What was registered last for a direction; nothing at first. -/
def lastRegistered (d : Direction) (as : List DeviceAction) : Option Notification :=
  (as.filterMap (registers d)).getLast?.getD none

end DeviceAction

/-- A request that only `register_device_collection_changed` makes. -/
def ServerMessage.aboutDeviceCollection : ServerMessage → Bool
  | .contextSetupDeviceCollectionCallback | .contextRegisterDeviceCollectionChanged .. => true
  | _ => false

namespace DeviceClient

/-- A client right after its `ClientContext` has connected. -/
def connected (t : ServerThread) (remotePid : Nat) (shmAreaSize : UInt64) : DeviceClient where
  thread := { t with
    servers := Function.update t.servers t.next (some (.new remotePid shmAreaSize))
    next := t.next + 1 }
  id := t.next
  deviceCollectionRpc := false
  deviceCollectionCallbacks := .default
  bound := none

def setup (c : DeviceClient) (out : RegisterCall) :
    Option (Except CubebError Unit × DeviceClient) :=
  if c.deviceCollectionRpc then some (.ok (), c)
  else
    match c.thread.request c.id out.setup .contextSetupDeviceCollectionCallback with
    | none => none
    | some (r, thread) =>
        let c := { c with thread }
        match sendRecv r setupDeviceCollectionCallback with
        | .error e => some (.error e, c)
        | .ok () =>
            if out.bindServer then
              some (.ok (), { c with
                bound := thread.callbacks c.id
                deviceCollectionRpc := true })
            else some (.error .error, c)

def register (c : DeviceClient) (out : RegisterCall) (devtype : DeviceType) (enable : Bool) :
    Option (Except CubebError Unit × DeviceClient) :=
  match c.thread.request c.id out.register
      (.contextRegisterDeviceCollectionChanged devtype.bits enable) with
  | none => none
  | some (r, thread) => some (sendRecv r registeredDeviceCollectionChanged, { c with thread })

/-- `none` if the server panics. -/
def registerDeviceCollectionChanged (c : DeviceClient) (out : RegisterCall) (devtype : DeviceType)
    (callback : Option Nat) (userPtr : Nat) : Option (Except CubebError Unit × DeviceClient) :=
  match c.setup out with
  | none => none
  | some (.error e, c) => some (.error e, c)
  | some (.ok (), c) =>
      let c := { c with
        deviceCollectionCallbacks := c.deviceCollectionCallbacks.set devtype callback userPtr }
      c.register out devtype callback.isSome

/-- What the rest of the client and the other clients do: anything but a
request about the device collection of this client. -/
def Foreign (c : DeviceClient) : ThreadAction → Bool
  | .connect .. => true
  | .drop id .. => id ≠ c.id
  | .request id _ msg => id ≠ c.id || !msg.aboutDeviceCollection

def step (c : DeviceClient) : DeviceAction → Option DeviceClient
  | .call out devtype callback userPtr =>
      match c.registerDeviceCollectionChanged out devtype callback userPtr with
      | some (.ok (), c') => some c'
      | _ => none
  | .other a =>
      if c.Foreign a then (c.thread.step a).map fun thread => { c with thread } else none

/-- The RPCs of the manager for a change in a direction. -/
def deviceChange (c : DeviceClient) (d : Direction) : List (CallbacksId × DeviceCollectionReq) :=
  CubebDeviceCollectionManager.deviceCollectionChangedCallback ⟨c.thread.list⟩ d.devtype.bits

/-- The callbacks of the client that are called for a change in a direction. -/
def notified (c : DeviceClient) (d : Direction) : List Notification :=
  (c.deviceChange d).flatMap fun (cbs, req) =>
    if c.bound = some cbs then
      (DeviceCollectionServer.process c.deviceCollectionCallbacks req).2
    else []

def subscribed (c : DeviceClient) (d : Direction) : Nat :=
  c.thread.list.countP fun e => c.bound = some e.1 ∧ e.2.contains d.devtype

/-- Each change is notified once to the callback of its direction, and not
at all if that is null. -/
def Delivers (c : DeviceClient) : Prop :=
  ∀ d, c.notified d = (c.deviceCollectionCallbacks.notification d).toList

/-- A call with a callback finds no entry of the client that contains a
direction of its device types. -/
def NothingLeft (c : DeviceClient) : DeviceAction → Prop
  | .call _ devtype (some _) _ =>
      ∀ d : Direction, devtype.contains d.devtype → c.subscribed d = 0
  | _ => True

instance (c : DeviceClient) : ∀ a, Decidable (c.NothingLeft a)
  | .call _ devtype (some _) _ =>
      inferInstanceAs (Decidable (∀ d : Direction, devtype.contains d.devtype → c.subscribed d = 0))
  | .call _ _ none _ | .other _ => inferInstanceAs (Decidable True)

/-- Each entry of the client makes one notification. -/
theorem notified_eq (c : DeviceClient) (d : Direction) : c.notified d =
    (List.replicate (c.subscribed d)
      (c.deviceCollectionCallbacks.notification d).toList).flatten := by
  unfold notified deviceChange CubebDeviceCollectionManager.deviceCollectionChangedCallback
    subscribed
  simp only [DeviceType.fromBitsTruncate_bits]
  induction c.thread.list with
  | nil => rfl
  | cons e l ih =>
      obtain ⟨cbs, devtype⟩ := e
      by_cases hd : devtype.contains d.devtype = true
      · rw [List.filterMap_cons_some (by simp only [hd, if_true]; rfl), List.flatMap_cons, ih]
        by_cases hcbs : c.bound = some cbs
        · rw [List.countP_cons_of_pos (by simp [hcbs, hd])]
          simp only [hcbs, if_true, DeviceCollectionServer.process_direction, List.replicate_succ,
            List.flatten_cons]
        · rw [List.countP_cons_of_neg (by simp [hcbs])]
          simp [hcbs]
      · rw [List.filterMap_cons_none (by simp [hd]), ih, List.countP_cons_of_neg (by simp [hd])]

/-- A direction with a callback is right if one entry contains it. -/
theorem delivers_iff (c : DeviceClient) : c.Delivers ↔
    ∀ d, c.deviceCollectionCallbacks.notification d ≠ none → c.subscribed d = 1 := by
  refine forall_congr' fun d => ?_
  rw [notified_eq]
  cases hcb : c.deviceCollectionCallbacks.notification d with
  | none => simp
  | some n =>
      have hlen : ∀ k : Nat, (List.replicate k (some n).toList).flatten = (some n).toList ↔
          k = 1 := by
        intro k
        constructor
        · intro h
          have := congrArg List.length h
          simpa using this
        · rintro rfl
          rfl
      rw [hlen]
      exact ⟨fun h _ => h, fun h => h nofun⟩

/-! ## What a call does -/

/-- In particular the bound server is the peer of the callbacks that the server
has (`current`). -/
structure Inv (c : DeviceClient) : Prop where
  thread : c.thread.Inv
  known : c.id < c.thread.next
  rpc : c.deviceCollectionRpc = c.bound.isSome
  current : ∀ cbs, c.bound = some cbs → c.thread.callbacks c.id = some cbs
  unbound : c.bound = none → ∀ d, c.deviceCollectionCallbacks.notification d = none

variable {c c' : DeviceClient}

theorem inv_connected {t : ServerThread} (h : t.Inv) (remotePid : Nat) (shmAreaSize : UInt64) :
    (connected t remotePid shmAreaSize).Inv where
  thread := ServerThread.step_inv (a := .connect remotePid shmAreaSize) h rfl
  known := Nat.lt_succ_self _
  rpc := rfl
  current := nofun
  unbound := fun _ d => by cases d <;> rfl

theorem setup_ok (h : c.Inv) {out : RegisterCall} (hs : c.setup out = some (.ok (), c')) :
    c'.Inv ∧ c'.bound ≠ none ∧
      c'.deviceCollectionCallbacks = c.deviceCollectionCallbacks ∧
      ∀ d, c'.subscribed d = c.subscribed d := by
  unfold setup at hs
  split at hs
  · rename_i hrpc
    cases hs
    refine ⟨h, fun hnone => ?_, rfl, fun _ => rfl⟩
    rw [h.rpc, hnone] at hrpc
    cases hrpc
  · rename_i hrpc
    have hunbound : c.bound = none := by
      cases hb : c.bound with
      | none => rfl
      | some cbs => exact absurd (h.rpc.trans (congrArg Option.isSome hb)) hrpc
    split at hs
    · cases hs
    · rename_i r thread hrequest
      have hreq := ServerThread.request_requested hrequest
      obtain ⟨s, s', hsome, hservers, heffect⟩ := hreq.known
      dsimp only at hs
      split at hs
      · cases hs
      · rename_i hsetup
        split at hs
        · cases hs
          cases heffect with
          | kept _ _ hbody => rw [answers_of_setup hsetup] at hbody; cases hbody
          | setup hcbs hlist =>
              have hmade : thread.callbacks c.id = some out.setup.callbacks := by
                simp [ServerThread.callbacks, hservers, hcbs]
              have hbound : thread.callbacks c.id ≠ none := by simp [hmade]
              refine ⟨⟨h.thread.request hreq, hreq.next ▸ h.known, ?_, fun cbs hb => hb,
                (absurd · hbound)⟩, hbound, rfl, fun d => ?_⟩
              · simp [hmade]
              · unfold subscribed
                dsimp only
                rw [hlist, hmade, hunbound]
                rw [List.countP_eq_zero.mpr, List.countP_eq_zero.mpr]
                · intro e _
                  simp
                · intro e he
                  have hne : e.1 ≠ out.setup.callbacks := hreq.fresh.1 e he
                  simp [hne.symm]
        · cases hs

/-- The entries of a client without those equal to one of them. -/
theorem countP_unsubscribe {l : List Subscription} {p : Subscription → Bool} {cbs : CallbacksId}
    {devtype : DeviceType} (hp : p (cbs, devtype) = false) :
    (unsubscribe l cbs devtype).countP p = l.countP p := by
  rw [List.countP_eq_length_filter, filter_unsubscribe hp, List.countP_eq_length_filter]

theorem register_ok (h : c.Inv) (hbound : c.bound ≠ none) {out : RegisterCall}
    {devtype : DeviceType} {enable : Bool}
    (hs : c.register out devtype enable = some (.ok (), c')) :
    c'.Inv ∧ c'.deviceCollectionCallbacks = c.deviceCollectionCallbacks ∧
      (enable = true → ∀ d, c'.subscribed d =
        c.subscribed d + if devtype.contains d.devtype then 1 else 0) ∧
      (enable = false → ∀ d : Direction, devtype.contains d.devtype = false →
        c'.subscribed d = c.subscribed d) := by
  unfold register at hs
  split at hs
  · cases hs
  · rename_i r thread hrequest
    simp only [Option.some.injEq, Prod.mk.injEq] at hs
    obtain ⟨hregistered, rfl⟩ := hs
    obtain ⟨cbs, hcbs⟩ := Option.ne_none_iff_exists'.mp hbound
    have hreq := ServerThread.request_requested hrequest
    obtain ⟨s, s', hsome, hservers, heffect⟩ := hreq.known
    have hhas : s.deviceCollectionChangeCallbacks = some cbs := by
      have := h.current cbs hcbs
      simpa [ServerThread.callbacks, hsome] using this
    have hinv : s'.deviceCollectionChangeCallbacks = s.deviceCollectionChangeCallbacks →
        ({ c with thread } : DeviceClient).Inv := by
      intro hsame
      refine ⟨h.thread.request hreq, hreq.next ▸ h.known, h.rpc, fun cbs' hb => ?_, h.unbound⟩
      simp only [ServerThread.callbacks, hservers, Function.update_self, Option.bind_some]
      rw [hsame, hhas, ← hcbs]
      exact hb
    cases heffect with
    | kept _ _ hbody => rw [answers_of_registered hregistered] at hbody; cases hbody
    | registered hhas' hsame hlist =>
        obtain rfl := Option.some.inj (hhas'.symm.trans hhas)
        refine ⟨hinv hsame, rfl, fun _ d => ?_, fun h => (by cases h)⟩
        unfold subscribed
        dsimp only
        rw [hlist, DeviceType.fromBitsTruncate_bits, List.countP_append, List.countP_singleton]
        simp [hcbs]
    | unregistered hhas' hsame hlist =>
        obtain rfl := Option.some.inj (hhas'.symm.trans hhas)
        refine ⟨hinv hsame, rfl, fun h => (by cases h), fun _ d hd => ?_⟩
        unfold subscribed
        dsimp only
        rw [hlist, DeviceType.fromBitsTruncate_bits]
        exact countP_unsubscribe (by simp [hd])

/-- What a call does that returns `Ok`. -/
structure Called (c c' : DeviceClient) (devtype : DeviceType) (callback : Option Nat)
    (userPtr : Nat) : Prop where
  inv : c'.Inv
  notification : ∀ d, c'.deviceCollectionCallbacks.notification d =
    if devtype.contains d.devtype then callback.map fun cb => (cb, userPtr)
    else c.deviceCollectionCallbacks.notification d
  added : callback ≠ none → ∀ d, c'.subscribed d =
    c.subscribed d + if devtype.contains d.devtype then 1 else 0
  kept : callback = none → ∀ d : Direction, devtype.contains d.devtype = false →
    c'.subscribed d = c.subscribed d

theorem step_call (h : c.Inv) {out : RegisterCall} {devtype : DeviceType} {callback : Option Nat}
    {userPtr : Nat} (hs : c.step (.call out devtype callback userPtr) = some c') :
    Called c c' devtype callback userPtr := by
  simp only [step] at hs
  split at hs
  · rename_i c₂ hcall
    cases hs
    unfold registerDeviceCollectionChanged at hcall
    split at hcall
    · cases hcall
    · cases hcall
    · rename_i c₁ hsetup
      obtain ⟨hinv, hbound, hcbs, hcount⟩ := setup_ok h hsetup
      have hset : ({ c₁ with deviceCollectionCallbacks :=
          c₁.deviceCollectionCallbacks.set devtype callback userPtr } : DeviceClient).Inv :=
        ⟨hinv.thread, hinv.known, hinv.rpc, hinv.current, fun hnone => absurd hnone hbound⟩
      obtain ⟨hinv', hcbs', hadded, hkept⟩ := register_ok hset hbound hcall
      refine ⟨hinv', fun d => ?_, fun hcb d => ?_, fun hcb d hd => ?_⟩
      · rw [hcbs', DeviceCollectionCallbacks.notification_set, hcbs]
      · rw [← hcount d]
        exact hadded (Option.isSome_iff_ne_none.mpr hcb) d
      · rw [← hcount d]
        exact hkept (by rw [hcb]; rfl) d hd
  · cases hs

theorem step_other (h : c.Inv) {a : ThreadAction} (hs : c.step (.other a) = some c') :
    c'.Inv ∧ c'.deviceCollectionCallbacks = c.deviceCollectionCallbacks ∧
      ∀ d, c'.subscribed d = c.subscribed d := by
  simp only [step] at hs
  split at hs
  · rename_i hforeign
    obtain ⟨thread, hstep, rfl⟩ := Option.map_eq_some_iff.mp hs
    -- the entries of another server are not the client's
    have hmine : ∀ id cbs, id ≠ c.id → c.thread.callbacks id = some cbs → c.bound ≠ some cbs := by
      intro id cbs hne hcbs hbound
      have hid := h.thread.owned c.id cbs (h.current cbs hbound)
      exact hne ((h.thread.owned id cbs hcbs).symm.trans hid)
    have hsubscribed : ∀ (d : Direction) (devtype : DeviceType) {id : ServerId} {cbs : CallbacksId}
        {l : List Subscription}, id ≠ c.id → c.thread.callbacks id = some cbs →
        (unsubscribe l cbs devtype).countP (fun e => c.bound = some e.1 ∧ e.2.contains d.devtype) =
          l.countP fun e => c.bound = some e.1 ∧ e.2.contains d.devtype := by
      intro d devtype id cbs l hne hcbs
      exact countP_unsubscribe (by simp [hmine id cbs hne hcbs])
    have hthread := ServerThread.step_inv h.thread hstep
    have hkeep : thread.callbacks c.id = c.thread.callbacks c.id → c.thread.next ≤ thread.next →
        (∀ d, ({ c with thread } : DeviceClient).subscribed d = c.subscribed d) →
        ({ c with thread } : DeviceClient).Inv ∧
          c.deviceCollectionCallbacks = c.deviceCollectionCallbacks ∧
          ∀ d, ({ c with thread } : DeviceClient).subscribed d = c.subscribed d := by
      intro hcbs hnext hcount
      exact ⟨⟨hthread, Nat.lt_of_lt_of_le h.known hnext, h.rpc,
        fun cbs hb => hcbs.trans (h.current cbs hb), h.unbound⟩, rfl, hcount⟩
    cases a with
    | connect remotePid shmAreaSize =>
        cases hstep
        refine hkeep ?_ (Nat.le_succ _) fun _ => rfl
        simp [ServerThread.callbacks, Nat.ne_of_lt h.known]
    | drop id input output =>
        have hne : id ≠ c.id := by simpa [Foreign] using hforeign
        obtain ⟨hservers, hnext, -, hlist, -⟩ := ServerThread.drop_dropped h.thread hstep
        refine hkeep ?_ (Nat.le_of_eq hnext.symm) fun d => ?_
        · simp [ServerThread.callbacks, hservers, hne.symm]
        · unfold subscribed
          rw [hlist]
          cases hcbs : c.thread.callbacks id with
          | none => rfl
          | some cbs => exact (hsubscribed d _ hne hcbs).trans (hsubscribed d _ hne hcbs)
    | request id out msg =>
        obtain ⟨⟨r, t₁⟩, hr, rfl⟩ := Option.map_eq_some_iff.mp hstep
        have hreq := ServerThread.request_requested hr
        obtain ⟨s, s', hsome, hservers, heffect⟩ := hreq.known
        have hnext := Nat.le_of_eq hreq.next.symm
        by_cases hid : id = c.id
        · -- the client's own request is about something else
          have hmsg : msg.aboutDeviceCollection = false := by simpa [Foreign, hid] using hforeign
          cases heffect with
          | kept hcbs hlist =>
              refine hkeep ?_ hnext fun d => by unfold subscribed; rw [hlist]
              simp [ServerThread.callbacks, hservers, ← hid, hsome, hcbs]
          | setup | registered | unregistered => cases hmsg
        · have hsame := hreq.callbacks_other (Ne.symm hid)
          have hhas : ∀ {cbs}, s.deviceCollectionChangeCallbacks = some cbs →
              c.thread.callbacks id = some cbs := by
            intro cbs hcbs
            simp [ServerThread.callbacks, hsome, hcbs]
          cases heffect with
          | kept _ hlist | setup _ hlist =>
              exact hkeep hsame hnext fun d => by unfold subscribed; rw [hlist]
          | registered hcbs _ hlist =>
              refine hkeep hsame hnext fun d => ?_
              unfold subscribed
              rw [hlist, List.countP_append, List.countP_singleton]
              simp [hmine id _ hid (hhas hcbs)]
          | unregistered hcbs _ hlist =>
              refine hkeep hsame hnext fun d => ?_
              unfold subscribed
              rw [hlist]
              exact hsubscribed d _ hid (hhas hcbs)
  · cases hs

/-! ## Every sequence of calls -/

/-- The client is all right, and so are its entries. -/
structure Delivering (c : DeviceClient) : Prop where
  inv : c.Inv
  delivers : c.Delivers

/-- After the step every change is notified as it should be. -/
def KeepsDelivering (c : DeviceClient) (a : DeviceAction) : Prop :=
  ∀ c', c.step a = some c' → c'.Delivers

theorem keepsDelivering_iff (h : c.Delivering) {a : DeviceAction} (hs : c.step a = some c') :
    c.KeepsDelivering a ↔ c.NothingLeft a := by
  have hkeeps : c.KeepsDelivering a ↔ c'.Delivers :=
    ⟨fun hk => hk c' hs, fun hd c'' hs' => Option.some.inj (hs.symm.trans hs') ▸ hd⟩
  have hone := (delivers_iff c).mp h.delivers
  rw [hkeeps, delivers_iff]
  cases a with
  | other a =>
      obtain ⟨-, hcbs, hcount⟩ := step_other h.inv hs
      simp only [NothingLeft, iff_true]
      intro d hd
      rw [hcount d]
      exact hone d (hcbs ▸ hd)
  | call out devtype callback userPtr =>
      obtain ⟨-, hnotification, hadded, hkept⟩ := step_call h.inv hs
      cases callback with
      | none =>
          simp only [NothingLeft, iff_true]
          intro d hd
          rw [hnotification d] at hd
          split at hd
          · exact absurd rfl hd
          · rename_i hout
            rw [hkept rfl d (Bool.eq_false_iff.mpr hout)]
            exact hone d hd
      | some cb =>
          constructor
          · intro hall d hin
            have hd := hall d
            rw [hnotification d, if_pos hin, hadded nofun d, if_pos hin] at hd
            exact Nat.succ.inj (hd nofun)
          · intro hleft d hd
            rw [hadded nofun d]
            by_cases hin : devtype.contains d.devtype = true
            · rw [if_pos hin, hleft d hin]
            · rw [hnotification d, if_neg hin] at hd
              rw [if_neg hin, hone d hd]

theorem step_inv (h : c.Inv) {a : DeviceAction} (hs : c.step a = some c') : c'.Inv := by
  cases a with
  | other a => exact (step_other h hs).1
  | call => exact (step_call h hs).inv

/-- The client has the callbacks that were registered last. -/
theorem runs_notification {as : List DeviceAction} (h : c.Inv)
    (hrun : Lts.runs step c as = some c') (d : Direction) :
    c'.deviceCollectionCallbacks.notification d =
      (as.filterMap (DeviceAction.registers d)).getLast?.getD
        (c.deviceCollectionCallbacks.notification d) := by
  induction as generalizing c with
  | nil =>
      obtain rfl := Option.some.inj hrun
      rfl
  | cons a as ih =>
      obtain ⟨c₁, hs, hrest⟩ := Lts.runs_cons_eq_some.mp hrun
      rw [ih (step_inv h hs) hrest]
      cases a with
      | other a =>
          rw [(step_other h hs).2.1]
          rfl
      | call out devtype callback userPtr =>
          rw [(step_call h hs).notification d]
          by_cases hin : devtype.contains d.devtype = true
          · rw [List.filterMap_cons_some (by simp only [DeviceAction.registers, hin, if_true]; rfl),
              List.getLast?_cons, if_pos hin]
            rfl
          · rw [List.filterMap_cons_none (by simp [DeviceAction.registers, hin]), if_neg hin]

/-- In a sequence of calls, each change is notified as it should be after
every call exactly if no call with a callback finds an entry of the client
that contains a direction of its device types. Then the callback registered
last for a direction is called once for a change in it, and none if that is
null. -/
theorem delivered_once {bs : List ThreadAction} {t : ServerThread} {remotePid : Nat}
    {shmAreaSize : UInt64} {as : List DeviceAction}
    (hthread : Lts.runs ServerThread.step .new bs = some t)
    (hrun : Lts.runs step (connected t remotePid shmAreaSize) as = some c) :
    (Lts.Within step KeepsDelivering (connected t remotePid shmAreaSize) as ↔
      Lts.Within step NothingLeft (connected t remotePid shmAreaSize) as) ∧
    (Lts.Within step NothingLeft (connected t remotePid shmAreaSize) as →
      ∀ d, c.notified d = (DeviceAction.lastRegistered d as).toList) := by
  have hinv : (connected t remotePid shmAreaSize).Inv :=
    inv_connected (ServerThread.runs_inv hthread) remotePid shmAreaSize
  have hnull : ∀ d, (connected t remotePid shmAreaSize).deviceCollectionCallbacks.notification d =
      none := hinv.unbound rfl
  have hstart : (connected t remotePid shmAreaSize).Delivering :=
    ⟨hinv, (delivers_iff _).mpr fun d hd => absurd (hnull d) hd⟩
  have hstep : ∀ c a c', Delivering c → c.NothingLeft a → c.step a = some c' → Delivering c' :=
    fun c a c' h hleft hs => ⟨step_inv h.inv hs, (keepsDelivering_iff h hs).mpr hleft c' hs⟩
  refine ⟨Lts.within_iff_of_runs hstep (fun _ _ _ h hs => keepsDelivering_iff h hs) hstart hrun,
    fun hleft d => ?_⟩
  have hend : c.Delivering := Lts.runs_within_invariant hstep hstart hleft hrun
  rw [hend.delivers d, runs_notification hinv hrun d, hnull d]
  rfl

/-! ## Two runs -/

/-- Calls that succeed, with the callbacks of the server at address 7. -/
def callScript (calls : List (DeviceType × Option Nat)) : List DeviceAction :=
  calls.map fun (devtype, callback) =>
    .call ⟨{ Outcome.success 0 with callbacks := 7 }, true,
      { Outcome.success 0 with callbacks := 8 }⟩ devtype callback 0

/-- The output is unregistered, and then gets another callback. -/
theorem delivered_once_run : ∃ c,
    Lts.runs step (connected .new 1 0)
      (callScript [(.INPUT, some 1), (.OUTPUT, some 2), (.OUTPUT, none), (.OUTPUT, some 3)]) =
      some c ∧ c.notified .input = [(1, 0)] ∧ c.notified .output = [(3, 0)] := by
  let as := callScript [(.INPUT, some 1), (.OUTPUT, some 2), (.OUTPUT, none), (.OUTPUT, some 3)]
  have hrun : (Lts.runs step (connected .new 1 0) as).isSome = true := by decide +kernel
  obtain ⟨c, hc⟩ := Option.isSome_iff_exists.mp hrun
  have hleft : Lts.Within step NothingLeft (connected .new 1 0) as := by decide +kernel
  have hthread : Lts.runs ServerThread.step .new [] = some .new := rfl
  have honce := (delivered_once hthread hc).2 hleft
  exact ⟨c, hc, honce .input, honce .output⟩

/-- What the API asks for: a direction is unregistered before it gets
another callback. -/
def UnregistersFirst (c : DeviceClient) : DeviceAction → Prop
  | .call _ devtype (some _) _ => ∀ d : Direction, devtype.contains d.devtype →
      c.deviceCollectionCallbacks.notification d = none
  | _ => True

instance (c : DeviceClient) : ∀ a, Decidable (c.UnregistersFirst a)
  | .call _ devtype (some _) _ =>
      inferInstanceAs (Decidable (∀ d : Direction, devtype.contains d.devtype →
        c.deviceCollectionCallbacks.notification d = none))
  | .call _ _ none _ | .other _ => inferInstanceAs (Decidable True)

/-- Both directions get a callback at once, and then the input is
unregistered and gets another one: this is called twice. -/
theorem notified_twice_run :
    let as := callScript [(⟨true, true⟩, some 1), (.INPUT, none), (.INPUT, some 2)]
    (∃ c, Lts.runs step (connected .new 1 0) as = some c ∧
      c.notified .input = [(2, 0), (2, 0)]) ∧
    Lts.Within step UnregistersFirst (connected .new 1 0) as := by
  have hrun : (Lts.runs step (connected .new 1 0)
      (callScript [(⟨true, true⟩, some 1), (.INPUT, none), (.INPUT, some 2)])).map
      (notified · .input) = some [(2, 0), (2, 0)] := by decide +kernel
  exact ⟨Option.map_eq_some_iff.mp hrun, by decide +kernel⟩

end DeviceClient

end Audioipc

import Audioipc.DeviceBarrier

/-!
# Unregistration of a stream's device change callback

`CallbackServer::process` with `DeviceChange` on the callback thread of a client
against calls of `register_device_changed_callback` on any number of other
threads, with the server between them. The backend calls the server's callback
from threads of its own, and unregistering it does not wait for these.

`process` copies the callback out of the mutex and calls it with the lock
released. So a callback that was copied runs even if it is replaced, and the call
that replaces it returns, before (`guards_iff`). Histories are as in
`DeviceBarrier`.
-/

namespace Audioipc

/-- Where a call is: it writes under the lock, releases that, sends
`StreamRegisterDeviceChangeCallback`, and is answered by the server before it
returns. -/
inductive StreamRegisterPhase where
  | locking
  | locked
  | written
  | calling
  | answered (r : Except CubebError Unit)
  | returned (r : Except CubebError Unit)

def StreamRegisterPhase.wrote : StreamRegisterPhase → Bool
  | .locking | .locked => false
  | .written | .calling | .answered _ | .returned _ => true

structure StreamRegisteringCall where
  callback : Option Nat
  phase : StreamRegisterPhase

/-- Where `process` is. It copies the callback under the lock, releases that
(`holding`) and calls the copy (`copied`), which comes with the call that
registered it. -/
inductive DeviceChangePhase where
  | idle
  | locking
  | locked
  | holding (cb : Option Nat) (cbBy : Option RegistrationId)
  | copied (cb : Option Nat) (cbBy : Option RegistrationId)
  | executing (cb : Nat) (cbBy : Option RegistrationId)
deriving Repr, DecidableEq

/-- The registration of the callback that will be called or is. -/
def DeviceChangePhase.carries : DeviceChangePhase → Option RegistrationId
  | .holding (some _) cbBy | .copied (some _) cbBy | .executing _ cbBy => cbBy
  | _ => none

/-- `cbBy` is the call that has written the callback. The backend has
`device_change_cb_c` while it is `registered`; `begun` are the calls of that
which have not made their RPC, and `requests` those that `process` has not got.
-/
structure StreamBarrier where
  deviceChangeCb : Option Nat
  cbBy : Option RegistrationId
  lock : Option LockHolder
  process : DeviceChangePhase
  registered : Bool
  begun : Nat
  requests : Nat
  calls : RegistrationId → Option StreamRegisteringCall
  next : RegistrationId
  history : List RegistrationId

/-- `serve` is `process_msg` on the server, with what the stream or its lookup
returns. `begin` and `request` are the backend's call of `device_change_cb_c`
and the RPC of `device_change_callback`; the rest are the steps of `process`.
-/
inductive StreamBarrierAction where
  | call (callback : Option Nat)
  | acquire (id : RegistrationId)
  | write (id : RegistrationId)
  | release (id : RegistrationId)
  | serve (id : RegistrationId) (r : Except CubebError Unit)
  | returns (id : RegistrationId)
  | begin
  | request
  | receive
  | lock
  | copy
  | unlock
  | invoke
  | finish

namespace StreamBarrier

def new : StreamBarrier where
  deviceChangeCb := none
  cbBy := none
  lock := none
  process := .idle
  registered := false
  begun := 0
  requests := 0
  calls := fun _ => none
  next := 0
  history := []

def setPhase (l : StreamBarrier) (id : RegistrationId) (callback : Option Nat)
    (phase : StreamRegisterPhase) : StreamBarrier :=
  { l with calls := Function.update l.calls id (some ⟨callback, phase⟩) }

/-- `*self.device_change_cb.lock().unwrap() = device_changed_callback`. -/
def write (l : StreamBarrier) (id : RegistrationId) (callback : Option Nat) : StreamBarrier :=
  { l.setPhase id callback .written with
    deviceChangeCb := callback
    cbBy := some id
    history := id :: l.history }

def serve (l : StreamBarrier) (id : RegistrationId) (callback : Option Nat)
    (r : Except CubebError Unit) : StreamBarrier :=
  { l.setPhase id callback (.answered r) with
    registered := match r with
      | .ok () => callback.isSome
      | .error _ => l.registered }

def step (l : StreamBarrier) : StreamBarrierAction → Option StreamBarrier
  | .call callback => some { l with
      calls := Function.update l.calls l.next (some ⟨callback, .locking⟩)
      next := l.next + 1 }
  | .acquire id =>
      match l.calls id, l.lock with
      | some ⟨callback, .locking⟩, none =>
          some { l.setPhase id callback .locked with lock := some (.call id) }
      | _, _ => none
  | .write id =>
      match l.calls id with
      | some ⟨callback, .locked⟩ => some (l.write id callback)
      | _ => none
  | .release id =>
      match l.calls id with
      | some ⟨callback, .written⟩ => some { l.setPhase id callback .calling with lock := none }
      | _ => none
  | .serve id r =>
      match l.calls id with
      | some ⟨callback, .calling⟩ => some (l.serve id callback r)
      | _ => none
  | .returns id =>
      match l.calls id with
      | some ⟨callback, .answered r⟩ => some (l.setPhase id callback (.returned r))
      | _ => none
  | .begin => if l.registered then some { l with begun := l.begun + 1 } else none
  | .request =>
      if 0 < l.begun then some { l with begun := l.begun - 1, requests := l.requests + 1 } else none
  | .receive =>
      match l.process with
      | .idle =>
          if 0 < l.requests then some { l with process := .locking, requests := l.requests - 1 }
          else none
      | _ => none
  | .lock =>
      match l.process, l.lock with
      | .locking, none => some { l with process := .locked, lock := some .server }
      | _, _ => none
  | .copy =>
      match l.process with
      | .locked => some { l with process := .holding l.deviceChangeCb l.cbBy }
      | _ => none
  | .unlock =>
      match l.process with
      | .holding cb cbBy => some { l with process := .copied cb cbBy, lock := none }
      | _ => none
  | .invoke =>
      match l.process with
      | .copied (some cb) cbBy => some { l with process := .executing cb cbBy }
      | .copied none _ => some { l with process := .idle }
      | _ => none
  | .finish =>
      match l.process with
      | .executing _ _ => some { l with process := .idle }
      | _ => none

variable {l l' : StreamBarrier} {id j k : RegistrationId} {c : StreamRegisteringCall}

/-- What a step does to the calls and the callback, and to `process`. A call
`goesOn` from and to phases before the write, or from and to such after it. -/
inductive Moves (l l' : StreamBarrier) : StreamBarrierAction → Prop
  | called {callback : Option Nat}
      (hcalls : l'.calls = Function.update l.calls l.next (some ⟨callback, .locking⟩))
      (hnext : l'.next = l.next + 1) (hcell : (l'.cbBy, l'.history) = (l.cbBy, l.history))
      (hprocess : l'.process = l.process) : Moves l l' (.call callback)
  | goesOn {a : StreamBarrierAction} {c : StreamRegisteringCall} (id : RegistrationId)
      (phase : StreamRegisterPhase) (hc : l.calls id = some c)
      (hwrote : phase.wrote = c.phase.wrote)
      (hreturned : ∀ r, phase = .returned r → a = .returns id)
      (hreturns : ∀ id', a = .returns id' → id' = id ∧ ∃ r, phase = .returned r)
      (hcalls : l'.calls = Function.update l.calls id (some { c with phase }))
      (hnext : l'.next = l.next) (hcell : (l'.cbBy, l'.history) = (l.cbBy, l.history))
      (hprocess : l'.process = l.process) : Moves l l' a
  | wrote {c : StreamRegisteringCall} (id : RegistrationId) (hc : l.calls id = some c)
      (hwrote : c.phase.wrote = false)
      (hcalls : l'.calls = Function.update l.calls id (some { c with phase := .written }))
      (hnext : l'.next = l.next) (hcell : (l'.cbBy, l'.history) = (some id, id :: l.history))
      (hprocess : l'.process = l.process) : Moves l l' (.write id)
  | processed {a : StreamBarrierAction} (hcalls : l'.calls = l.calls) (hnext : l'.next = l.next)
      (hcell : (l'.cbBy, l'.history) = (l.cbBy, l.history))
      (hprocess : l'.process.carries = none ∨ l'.process.carries = l.process.carries ∨
        l'.process.carries = l.cbBy)
      (ha : ∀ id, a ≠ .returns id) : Moves l l' a

theorem step_cases {a : StreamBarrierAction} (hs : l.step a = some l') : l.Moves l' a := by
  cases a with
  | call callback =>
      cases hs
      exact .called rfl rfl rfl rfl
  | acquire id =>
      simp only [step] at hs
      split at hs <;> cases hs
      exact .goesOn id .locked ‹_› rfl (by simp) (by simp) rfl rfl rfl rfl
  | write id =>
      simp only [step] at hs
      split at hs <;> cases hs
      exact .wrote id ‹_› rfl rfl rfl rfl rfl
  | release id =>
      simp only [step] at hs
      split at hs <;> cases hs
      exact .goesOn id .calling ‹_› rfl (by simp) (by simp) rfl rfl rfl rfl
  | serve id r =>
      simp only [step] at hs
      split at hs <;> cases hs
      exact .goesOn id (.answered r) ‹_› rfl (by simp) (by simp) rfl rfl rfl rfl
  | returns id =>
      simp only [step] at hs
      split at hs <;> cases hs
      refine .goesOn id (.returned _) ‹_› rfl (fun _ _ => rfl) ?_ rfl rfl rfl rfl
      rintro id' ⟨⟩
      exact ⟨rfl, _, rfl⟩
  | begin | request =>
      simp only [step] at hs
      split at hs <;> cases hs
      exact .processed rfl rfl rfl (Or.inr (Or.inl rfl)) (by simp)
  | receive =>
      simp only [step] at hs
      split at hs
      · split at hs <;> cases hs
        exact .processed rfl rfl rfl (Or.inl rfl) (by simp)
      · cases hs
  | lock =>
      simp only [step] at hs
      split at hs <;> cases hs
      exact .processed rfl rfl rfl (Or.inl rfl) (by simp)
  | copy =>
      simp only [step] at hs
      split at hs <;> cases hs
      refine .processed rfl rfl rfl ?_ (by simp)
      cases hcb : l.deviceChangeCb with
      | none => exact Or.inl rfl
      | some cb => exact Or.inr (Or.inr rfl)
  | unlock =>
      simp only [step] at hs
      split at hs <;> cases hs
      rename_i cb cbBy hprocess
      refine .processed rfl rfl rfl (Or.inr (Or.inl ?_)) (by simp)
      rw [hprocess]
      cases cb <;> rfl
  | invoke =>
      simp only [step] at hs
      split at hs <;> cases hs
      · rename_i hprocess
        exact .processed rfl rfl rfl (Or.inr (Or.inl (by rw [hprocess]; rfl))) (by simp)
      · exact .processed rfl rfl rfl (Or.inl rfl) (by simp)
  | finish =>
      simp only [step] at hs
      split at hs <;> cases hs
      exact .processed rfl rfl rfl (Or.inl rfl) (by simp)

/-! ## The invariant -/

structure Inv (l : StreamBarrier) : Prop where
  fresh : ∀ id, l.next ≤ id → l.calls id = none
  history : ∀ id, id ∈ l.history ↔ ∃ c, l.calls id = some c ∧ c.phase.wrote = true
  nodup : l.history.Nodup
  head : l.cbBy = l.history.head?

theorem inv_new : new.Inv :=
  ⟨fun _ _ => rfl, fun _ => ⟨fun h => (by cases h), by rintro ⟨_, h, _⟩; cases h⟩,
    List.nodup_nil, rfl⟩

theorem Inv.lt (h : l.Inv) (hc : l.calls id = some c) : id < l.next := by
  by_contra hle
  rw [h.fresh id (Nat.le_of_not_lt hle)] at hc
  cases hc

theorem Inv.wrote_iff (h : l.Inv) {c' : StreamRegisteringCall}
    (hcalls : l'.calls = Function.update l.calls id (some c')) (id' : RegistrationId) :
    (∃ c, l'.calls id' = some c ∧ c.phase.wrote = true) ↔
      (id' = id ∧ c'.phase.wrote = true) ∨ (id' ≠ id ∧ id' ∈ l.history) := by
  rw [hcalls]
  constructor
  · rintro ⟨c, hc, hwrote⟩
    rcases Slab.insert_cases hc with ⟨rfl, rfl⟩ | ⟨hne, hc⟩
    · exact Or.inl ⟨rfl, hwrote⟩
    · exact Or.inr ⟨hne, (h.history id').mpr ⟨c, hc, hwrote⟩⟩
  · rintro (⟨rfl, hwrote⟩ | ⟨hne, hin⟩)
    · exact ⟨c', Function.update_self .., hwrote⟩
    · obtain ⟨c, hc, hwrote⟩ := (h.history id').mp hin
      exact ⟨c, by rw [Function.update_of_ne hne]; exact hc, hwrote⟩

theorem step_inv (h : l.Inv) {a : StreamBarrierAction} (hs : l.step a = some l') : l'.Inv := by
  cases step_cases hs with
  | called hcalls hnext hcell hprocess =>
      obtain ⟨hby, hhistory⟩ := Prod.mk.inj hcell
      have hnew : l.next ∉ l.history := by
        intro hin
        obtain ⟨c, hc, -⟩ := (h.history l.next).mp hin
        exact absurd (h.lt hc) (Nat.lt_irrefl _)
      refine ⟨fun id hle => ?_, fun id => ?_, hhistory ▸ h.nodup, by rw [hby, hhistory, h.head]⟩
      · rw [hnext] at hle
        have hlt : l.next < id := hle
        rw [hcalls, Function.update_of_ne (Nat.ne_of_gt hlt)]
        exact h.fresh id (Nat.le_of_lt hlt)
      · rw [h.wrote_iff hcalls, hhistory]
        constructor
        · intro hin
          exact Or.inr ⟨fun hid => hnew (hid ▸ hin), hin⟩
        · rintro (⟨-, hwrote⟩ | ⟨-, hin⟩)
          · cases hwrote
          · exact hin
  | @goesOn _ c id phase hc hwrote _ _ hcalls hnext hcell hprocess =>
      obtain ⟨hby, hhistory⟩ := Prod.mk.inj hcell
      refine ⟨fun id' hle => ?_, fun id' => ?_, hhistory ▸ h.nodup, by rw [hby, hhistory, h.head]⟩
      · rw [hnext] at hle
        rw [hcalls, Function.update_of_ne (Nat.ne_of_gt (Nat.lt_of_lt_of_le (h.lt hc) hle))]
        exact h.fresh id' hle
      · rw [h.wrote_iff hcalls, hhistory]
        have hself : id ∈ l.history ↔ phase.wrote = true := by
          rw [h.history, hwrote]
          simp [hc]
        constructor
        · intro hin
          by_cases hid : id' = id
          · exact Or.inl ⟨hid, hself.mp (hid ▸ hin)⟩
          · exact Or.inr ⟨hid, hin⟩
        · rintro (⟨rfl, hphase⟩ | ⟨-, hin⟩)
          · exact hself.mpr hphase
          · exact hin
  | @wrote c id hc hwrote hcalls hnext hcell hprocess =>
      obtain ⟨hby, hhistory⟩ := Prod.mk.inj hcell
      have hout : id ∉ l.history := by
        intro hin
        obtain ⟨c', hc', hphase⟩ := (h.history id).mp hin
        obtain rfl := Option.some.inj (hc.symm.trans hc')
        rw [hwrote] at hphase
        cases hphase
      refine ⟨fun id' hle => ?_, fun id' => ?_, hhistory ▸ List.nodup_cons.mpr ⟨hout, h.nodup⟩,
        by rw [hby, hhistory]; rfl⟩
      · rw [hnext] at hle
        rw [hcalls, Function.update_of_ne (Nat.ne_of_gt (Nat.lt_of_lt_of_le (h.lt hc) hle))]
        exact h.fresh id' hle
      · rw [h.wrote_iff hcalls, hhistory, List.mem_cons]
        constructor
        · rintro (rfl | hin)
          · exact Or.inl ⟨rfl, rfl⟩
          · exact Or.inr ⟨fun hid => hout (hid ▸ hin), hin⟩
        · rintro (⟨rfl, -⟩ | ⟨-, hin⟩)
          · exact Or.inl rfl
          · exact Or.inr hin
  | processed hcalls hnext hcell hprocess ha =>
      obtain ⟨hby, hhistory⟩ := Prod.mk.inj hcell
      refine ⟨fun id hle => ?_, fun id => ?_, hhistory ▸ h.nodup, by rw [hby, hhistory, h.head]⟩
      · rw [hcalls]
        exact h.fresh id (hnext ▸ hle)
      · rw [hcalls, hhistory]
        exact h.history id

/-! ## The barrier -/

theorem step_history {a : StreamBarrierAction} (hs : l.step a = some l') :
    l.history <:+ l'.history := by
  cases step_cases hs with
  | called _ _ hcell | goesOn _ _ _ _ _ _ _ _ hcell | processed _ _ hcell =>
      simp only [(Prod.mk.inj hcell).2, List.suffix_refl]
  | wrote id _ _ _ _ hcell =>
      rw [(Prod.mk.inj hcell).2]
      exact List.suffix_cons ..

/-- The registration was replaced, and no copy of it is left. -/
def Retired (l : StreamBarrier) (j : RegistrationId) : Prop :=
  (∃ k, History.Replaced l.history k j) ∧ l.process.carries ≠ some j

theorem Retired.step (h : l.Inv) (hj : l.Retired j) {a : StreamBarrierAction}
    (hs : l.step a = some l') : l'.Retired j := by
  obtain ⟨⟨k, hk⟩, hcarries⟩ := hj
  refine ⟨⟨k, hk.mono (step_history hs)⟩, ?_⟩
  cases step_cases hs with
  | called _ _ _ hprocess | goesOn _ _ _ _ _ _ _ _ _ hprocess | wrote _ _ _ _ _ _ hprocess =>
      rw [hprocess]
      exact hcarries
  | processed _ _ _ hprocess =>
      rcases hprocess with hnone | hsame | hcopied
      · rw [hnone]
        simp
      · rw [hsame]
        exact hcarries
      · -- a copy is of the latest registration
        rw [hcopied, h.head]
        exact hk.ne_head h.nodup

theorem Retired.runs (h : l.Inv) (hj : l.Retired j) {bs : List StreamBarrierAction}
    (hrun : Lts.runs StreamBarrier.step l bs = some l') : l'.Retired j :=
  (Lts.runs_invariant (I := fun l => l.Inv ∧ l.Retired j)
    (fun _ _ _ h hs => ⟨step_inv h.1 hs, h.2.step h.1 hs⟩) ⟨h, hj⟩ hrun).2

/-- Once a call has returned, what it has replaced does not run, now or later. -/
def Guards (l : StreamBarrier) : Prop :=
  ∀ id c r, l.calls id = some c → c.phase = .returned r → id ∈ l.history ∧
    ∀ j, History.Replaced l.history id j → ∀ bs l', Lts.runs step l bs = some l' →
      ∀ cb, l'.process ≠ .executing cb (some j)

/-- No copy is left of what a call that has returned has replaced. -/
def Quiet (l : StreamBarrier) : Prop :=
  ∀ id c r, l.calls id = some c → c.phase = .returned r →
    ∀ j, History.Replaced l.history id j → l.process.carries ≠ some j

/-- A copy runs in the end. -/
theorem carries_runs (h : l.process.carries = some j) :
    ∃ bs l' cb, Lts.runs step l bs = some l' ∧ l'.process = .executing cb (some j) := by
  cases hprocess : l.process with
  | idle | locking | locked => rw [hprocess] at h; cases h
  | holding cb cbBy =>
      rw [hprocess] at h
      cases cb with
      | none => cases h
      | some cb =>
          obtain rfl : cbBy = some j := h
          exact ⟨[.unlock, .invoke], _, cb, by simp [Lts.runs_cons, step, hprocess]; rfl, rfl⟩
  | copied cb cbBy =>
      rw [hprocess] at h
      cases cb with
      | none => cases h
      | some cb =>
          obtain rfl : cbBy = some j := h
          exact ⟨[.invoke], _, cb, by simp [Lts.runs_cons, step, hprocess]; rfl, rfl⟩
  | executing cb cbBy =>
      rw [hprocess] at h
      obtain rfl : cbBy = some j := h
      exact ⟨[], l, cb, rfl, hprocess⟩

theorem guards_iff (h : l.Inv) : l.Guards ↔ l.Quiet := by
  constructor
  · intro hguards id c r hc hph j hj hcarries
    obtain ⟨bs, l', cb, hrun, hexecuting⟩ := carries_runs hcarries
    exact (hguards id c r hc hph).2 j hj bs l' hrun cb hexecuting
  · intro hquiet id c r hc hph
    refine ⟨(h.history id).mpr ⟨c, hc, by rw [hph]; rfl⟩, fun j hj bs l' hrun cb hexecuting => ?_⟩
    have hretired : l'.Retired j := Retired.runs h ⟨⟨id, hj⟩, hquiet id c r hc hph j hj⟩ hrun
    refine hretired.2 ?_
    rw [hexecuting]
    rfl

/-- After the step, calls are barriers. -/
def KeepsGuards (l : StreamBarrier) (a : StreamBarrierAction) : Prop :=
  ∀ l', l.step a = some l' → l'.Guards

/-- A call that returns leaves no copy of what it has replaced. -/
def NoCopyLeft (l : StreamBarrier) : StreamBarrierAction → Prop
  | .returns id => ∀ j, History.Replaced l.history id j → l.process.carries ≠ some j
  | _ => True

instance decidableNoCopyLeft (l : StreamBarrier) : ∀ a, Decidable (l.NoCopyLeft a)
  | .returns id =>
      decidable_of_iff (∀ j ∈ l.process.carries, ¬ History.Replaced l.history id j)
        ⟨fun h j hj hcarries => h j hcarries hj, fun h j hcarries hj => h j hj hcarries⟩
  | .call _ | .acquire _ | .write _ | .release _ | .serve .. | .begin | .request | .receive
  | .lock | .copy | .unlock | .invoke | .finish => inferInstanceAs (Decidable True)

/-- The calls that have returned have replaced what they had replaced before. -/
theorem quiet_step (h : l.Inv) (hquiet : l.Quiet) {a : StreamBarrierAction}
    (hs : l.step a = some l') : l'.Quiet ↔ l.NoCopyLeft a := by
  -- a call that had returned before
  have hold : ∀ {id c r j}, l.calls id = some c → c.phase = .returned r →
      History.Replaced l'.history id j → l'.process.carries ≠ some j := by
    intro id c r j hc hph hj
    have hj : History.Replaced l.history id j := by
      cases step_cases hs with
      | called _ _ hcell | goesOn _ _ _ _ _ _ _ _ hcell | processed _ _ hcell =>
          rwa [(Prod.mk.inj hcell).2] at hj
      | wrote id' hc' hwrote _ _ hcell =>
          rw [(Prod.mk.inj hcell).2] at hj
          rcases History.replaced_cons.mp hj with ⟨rfl, -⟩ | hj
          · obtain rfl := Option.some.inj (hc.symm.trans hc')
            rw [hph] at hwrote
            cases hwrote
          · exact hj
    have hretired : l.Retired j := ⟨⟨id, hj⟩, hquiet id c r hc hph j hj⟩
    exact (hretired.step h hs).2
  cases step_cases hs with
  | called hcalls =>
      refine ⟨fun _ => trivial, fun _ id c r hc hph j hj => ?_⟩
      rw [hcalls] at hc
      rcases Slab.insert_cases hc with ⟨rfl, rfl⟩ | ⟨-, hc⟩
      · cases hph
      · exact hold hc hph hj
  | wrote id _ _ hcalls =>
      refine ⟨fun _ => trivial, fun _ id c r hc hph j hj => ?_⟩
      rw [hcalls] at hc
      rcases Slab.insert_cases hc with ⟨rfl, rfl⟩ | ⟨-, hc⟩
      · cases hph
      · exact hold hc hph hj
  | processed hcalls _ _ _ ha =>
      have htriv : l.NoCopyLeft a := by
        cases a with
        | returns id => exact absurd rfl (ha id)
        | _ => trivial
      refine ⟨fun _ => htriv, fun _ id c r hc hph j hj => ?_⟩
      rw [hcalls] at hc
      exact hold hc hph hj
  | @goesOn _ c id phase hc hwrote hreturned hreturns hcalls _ hcell hprocess =>
      have hsame : l'.history = l.history := (Prod.mk.inj hcell).2
      constructor
      · intro hquiet'
        cases a with
        | returns id' =>
            obtain ⟨rfl, r, rfl⟩ := hreturns id' rfl
            intro j hj hcarries
            refine hquiet' id' { c with phase := .returned r } r ?_ rfl j (hsame.symm ▸ hj)
              (hprocess.symm ▸ hcarries)
            rw [hcalls]
            exact Function.update_self ..
        | _ => trivial
      · intro hno id' c' r hc' hph j hj
        rw [hcalls] at hc'
        rcases Slab.insert_cases hc' with ⟨rfl, rfl⟩ | ⟨-, hc'⟩
        · obtain rfl := hreturned r hph
          rw [hprocess]
          exact hno j (hsame ▸ hj)
        · exact hold hc' hph hj

theorem stream_unregistration {as : List StreamBarrierAction}
    (hrun : Lts.runs step new as = some l) :
    Lts.Within step KeepsGuards new as ↔ Lts.Within step NoCopyLeft new as := by
  refine Lts.within_iff_of_runs (I := fun l => l.Inv ∧ l.Quiet) ?_ ?_ ?_ hrun
  · rintro s a t ⟨hinv, hquiet⟩ hno hs
    exact ⟨step_inv hinv hs, (quiet_step hinv hquiet hs).mpr hno⟩
  · rintro s a t ⟨hinv, hquiet⟩ hs
    rw [← quiet_step hinv hquiet hs, ← guards_iff (step_inv hinv hs)]
    refine ⟨fun h => h t hs, fun h t' ht' => ?_⟩
    obtain rfl := Option.some.inj (hs.symm.trans ht')
    exact h
  · exact ⟨inv_new, fun id c r hc => by cases hc⟩

/-- The callback of the first call, from its registration to its copy. -/
def registerAndCopy : List StreamBarrierAction :=
  [.call (some 10), .acquire 0, .write 0, .release 0, .serve 0 (.ok ()), .returns 0, .begin,
    .request, .receive, .lock, .copy, .unlock]

def unregister : List StreamBarrierAction :=
  [.call none, .acquire 1, .write 1, .release 1, .serve 1 (.ok ()), .returns 1]

/-- The callback has run before it is unregistered. -/
theorem stream_unregistration_run : ∃ l,
    Lts.runs step new (registerAndCopy ++ [.invoke, .finish] ++ unregister) = some l ∧
      l.calls 1 = some ⟨none, .returned (.ok ())⟩ ∧
      Lts.Within step NoCopyLeft new (registerAndCopy ++ [.invoke, .finish] ++ unregister) ∧
      Lts.Within step KeepsGuards new (registerAndCopy ++ [.invoke, .finish] ++ unregister) := by
  have hrun : (Lts.runs step new (registerAndCopy ++ [.invoke, .finish] ++ unregister)).map
      (·.calls 1) = some (some ⟨none, .returned (.ok ())⟩) := rfl
  have hno : Lts.Within step NoCopyLeft new
      (registerAndCopy ++ [.invoke, .finish] ++ unregister) := by
    decide +kernel
  obtain ⟨l, hl, hreturned⟩ := Option.map_eq_some_iff.mp hrun
  exact ⟨l, hl, hreturned, hno, (stream_unregistration hl).mpr hno⟩

/-- The callback runs after the call that unregistered it has returned. -/
theorem stream_unregistration_races : ∃ l l', Lts.runs step new (registerAndCopy ++ unregister) =
      some l ∧ l.calls 1 = some ⟨none, .returned (.ok ())⟩ ∧ Lts.runs step l [.invoke] = some l' ∧
      l'.process = .executing 10 (some 0) ∧ ¬ l.Guards := by
  refine ⟨_, _, rfl, rfl, rfl, rfl, fun h => ?_⟩
  exact (h 1 ⟨none, .returned (.ok ())⟩ (.ok ()) rfl rfl).2 0 ⟨[], [0], rfl, List.mem_cons_self ..⟩
    [.invoke] _ rfl 10 rfl

end StreamBarrier

end Audioipc

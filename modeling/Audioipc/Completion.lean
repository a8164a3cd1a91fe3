import Audioipc.Lts

/-!
# The completion handshake

`Completion` and `CompletionWriter` of `rpccore.rs`, in one `Proxy::call`. The
writer holds a pointer to the `Completion`, which lies on the stack of the
waiting thread. It is pushed into the queue with the request and is then
another thread's to use; if the push fails, or the queue is dropped with it,
the waiting thread drops it itself.

Each access to the flag and to the item is a step, and so are `park` and
`unpark`. A `park` may return without a token, others may `unpark` the waiting
thread, and that thread may use up a token elsewhere, though not between a
load and the `park` that follows it.

The flag is set exactly while the writer is alive (`Inv.flag`), so a load that
finds it clear comes after the writer's last access; and a waiter that found
it set is owed a token for as long as it has none (`Inv.owed`).
-/

namespace Audioipc

structure Completion (α : Type) where
  item : Option α
  writer : Bool
deriving Repr, DecidableEq

def Completion.new {α : Type} : Completion α := ⟨none, false⟩

/-- The loops that wait for the writer: `Completion::wait` and the drop of
the `Completion`. -/
inductive WaitLoop where
  | wait
  | drop
deriving Repr, DecidableEq

/-- Where the waiting thread is in `Proxy::call`: about to make the writer, in
`push` or `wake_connection` (`calling`), in one of the two loops of `wait`,
about to take the item, or past the `Completion`. -/
inductive WaiterPhase where
  | new
  | calling
  | loading (loop : WaitLoop)
  | parked (loop : WaitLoop)
  | taking
  | destroyed
deriving Repr, DecidableEq

inductive Party where
  | waiter
  | other
deriving Repr, DecidableEq

/-- The `CompletionWriter`. It is `dropping` from the end of `set` on, and
`unparking` once the flag is clear and the waiter about to be unparked. -/
inductive WriterPhase where
  | none
  | held
  | dropping
  | unparking (party : Party)
  | dropped
deriving Repr, DecidableEq

/-- It has not made its last access to the `Completion`. -/
def WriterPhase.alive : WriterPhase → Bool
  | .held | .dropping => true
  | .none | .unparking _ | .dropped => false

/-- `enqueued` is whether the writer was pushed into the queue, `token` the
unpark token of the waiting thread, `result` what `wait` returned and `wasSet`
the argument of `set`, if that was called. -/
structure Rendezvous (α : Type) where
  response : Completion α
  phase : WaiterPhase
  writer : WriterPhase
  enqueued : Bool
  token : Bool
  result : Option (Option α)
  wasSet : Option α
deriving Repr, DecidableEq

/-- `enqueue` and `refused` are the ends of `consumer.queue.push(request)`;
`wake_connection` then returns (`pushed`) or panics (`unwind`). `park` may
return without a token (`spurious`), and the waiting thread be unparked by
others, or use up a token, elsewhere (`produce`, `consume`). `clear` is where
the drop of the writer begins. -/
inductive RendezvousAction (α : Type) where
  | writer
  | enqueue
  | refused
  | pushed
  | unwind
  | load
  | park
  | spurious
  | take
  | set (value : α)
  | clear (party : Party)
  | unpark
  | produce
  | consume

/-- `wait` has not returned, if it is called at all. -/
def WaiterPhase.beforeTake : WaiterPhase → Bool
  | .new | .calling | .loading .wait | .parked .wait | .taking => true
  | .loading .drop | .parked .drop | .destroyed => false

/-- The writer accesses the `Completion`. -/
def RendezvousAction.accesses {α : Type} : RendezvousAction α → Bool
  | .set _ | .clear _ => true
  | _ => false

namespace Rendezvous

variable {α : Type}

def new : Rendezvous α where
  response := .new
  phase := .new
  writer := .none
  enqueued := false
  token := false
  result := none
  wasSet := none

/-- `Completion::writer`; the assertion that fails unwinds. -/
def makeWriter (s : Rendezvous α) : Rendezvous α :=
  if s.response.writer then { s with phase := .loading .drop }
  else { s with
    response := { s.response with writer := true }
    writer := .held
    phase := .calling }

/-- `CompletionWriter::set` up to the drop of the writer, which comes also
if the assertion fails. -/
def set (s : Rendezvous α) (value : α) : Rendezvous α :=
  { s with
    response := if s.response.writer then { s.response with item := some value } else s.response
    writer := .dropping
    wasSet := some value }

def clear (s : Rendezvous α) (party : Party) : Rendezvous α :=
  { s with response := { s.response with writer := false }, writer := .unparking party }

/-- `self.writer.load(..)`, and what follows of the loop. -/
def load (s : Rendezvous α) (loop : WaitLoop) : Rendezvous α :=
  if s.response.writer then { s with phase := .parked loop }
  else
    match loop with
    | .wait => { s with phase := .taking }
    | .drop => { s with phase := .destroyed }

/-- `(*self.item.get()).take()`; the `Completion` is dropped next. -/
def take (s : Rendezvous α) : Rendezvous α :=
  { s with
    response := { s.response with item := none }
    result := some s.response.item
    phase := .loading .drop }

def step (s : Rendezvous α) : RendezvousAction α → Option (Rendezvous α)
  | .writer => if s.phase = .new then some s.makeWriter else none
  | .enqueue =>
      if s.phase = .calling ∧ s.writer = .held ∧ s.enqueued = false then
        some { s with enqueued := true }
      else none
  | .refused =>
      if s.phase = .calling ∧ s.enqueued = false ∧ s.writer = .dropped then
        some { s with phase := .loading .drop }
      else none
  | .pushed =>
      if s.phase = .calling ∧ s.enqueued = true ∧ s.writer ≠ .unparking .waiter then
        some { s with phase := .loading .wait }
      else none
  | .unwind =>
      if s.phase = .calling ∧ s.enqueued = true ∧ s.writer ≠ .unparking .waiter then
        some { s with phase := .loading .drop }
      else none
  | .load =>
      match s.phase with
      | .loading loop => some (s.load loop)
      | _ => none
  | .park =>
      match s.phase, s.token with
      | .parked loop, true => some { s with phase := .loading loop, token := false }
      | _, _ => none
  | .spurious =>
      match s.phase with
      | .parked loop => some { s with phase := .loading loop }
      | _ => none
  | .take => if s.phase = .taking then some s.take else none
  | .set value => if s.writer = .held ∧ s.enqueued = true then some (s.set value) else none
  | .clear .waiter =>
      -- in `push`: the request was refused, or the queue is dropped
      if s.phase = .calling ∧ s.writer = .held then some (s.clear .waiter) else none
  | .clear .other =>
      if s.enqueued = true ∧ s.writer.alive = true then some (s.clear .other) else none
  | .unpark =>
      match s.writer with
      | .unparking _ => some { s with writer := .dropped, token := true }
      | _ => none
  | .produce => some { s with token := true }
  | .consume =>
      match s.phase with
      | .parked _ => none
      | _ => some { s with token := false }

variable {s s' : Rendezvous α}

inductive Moves (s : Rendezvous α) : RendezvousAction α → Rendezvous α → Prop
  | writer (hph : s.phase = .new) : Moves s .writer s.makeWriter
  | enqueue (hph : s.phase = .calling) (hw : s.writer = .held) :
      Moves s .enqueue { s with enqueued := true }
  | refused (hph : s.phase = .calling) (hw : s.writer = .dropped) :
      Moves s .refused { s with phase := .loading .drop }
  | pushed (hph : s.phase = .calling) : Moves s .pushed { s with phase := .loading .wait }
  | unwind (hph : s.phase = .calling) : Moves s .unwind { s with phase := .loading .drop }
  | load {loop : WaitLoop} (hph : s.phase = .loading loop) : Moves s .load (s.load loop)
  | park {loop : WaitLoop} (hph : s.phase = .parked loop) (htoken : s.token = true) :
      Moves s .park { s with phase := .loading loop, token := false }
  | spurious {loop : WaitLoop} (hph : s.phase = .parked loop) :
      Moves s .spurious { s with phase := .loading loop }
  | take (hph : s.phase = .taking) : Moves s .take s.take
  | set {value : α} (hw : s.writer = .held) : Moves s (.set value) (s.set value)
  | clear {party : Party} (halive : s.writer.alive = true) : Moves s (.clear party) (s.clear party)
  | unpark {party : Party} (hw : s.writer = .unparking party) :
      Moves s .unpark { s with writer := .dropped, token := true }
  | produce : Moves s .produce { s with token := true }
  | consume (hph : ∀ loop, s.phase ≠ .parked loop) : Moves s .consume { s with token := false }

theorem step_cases {a : RendezvousAction α} (hs : s.step a = some s') : s.Moves a s' := by
  cases a with
  | writer =>
      obtain ⟨hph, ⟨⟩⟩ := Option.ite_none_right_eq_some.mp hs
      exact .writer hph
  | enqueue =>
      obtain ⟨⟨hph, hw, -⟩, ⟨⟩⟩ := Option.ite_none_right_eq_some.mp hs
      exact .enqueue hph hw
  | refused =>
      obtain ⟨⟨hph, -, hw⟩, ⟨⟩⟩ := Option.ite_none_right_eq_some.mp hs
      exact .refused hph hw
  | pushed =>
      obtain ⟨⟨hph, -⟩, ⟨⟩⟩ := Option.ite_none_right_eq_some.mp hs
      exact .pushed hph
  | unwind =>
      obtain ⟨⟨hph, -⟩, ⟨⟩⟩ := Option.ite_none_right_eq_some.mp hs
      exact .unwind hph
  | load =>
      simp only [step] at hs
      split at hs <;> cases hs
      exact .load ‹_›
  | park =>
      simp only [step] at hs
      split at hs <;> cases hs
      exact .park ‹_› ‹_›
  | spurious =>
      simp only [step] at hs
      split at hs <;> cases hs
      exact .spurious ‹_›
  | take =>
      obtain ⟨hph, ⟨⟩⟩ := Option.ite_none_right_eq_some.mp hs
      exact .take hph
  | set value =>
      obtain ⟨⟨hw, -⟩, ⟨⟩⟩ := Option.ite_none_right_eq_some.mp hs
      exact .set hw
  | clear party =>
      cases party with
      | waiter =>
          obtain ⟨⟨-, hw⟩, ⟨⟩⟩ := Option.ite_none_right_eq_some.mp hs
          exact .clear (by rw [hw]; rfl)
      | other =>
          obtain ⟨⟨-, halive⟩, ⟨⟩⟩ := Option.ite_none_right_eq_some.mp hs
          exact .clear halive
  | unpark =>
      simp only [step] at hs
      split at hs <;> cases hs
      exact .unpark ‹_›
  | produce =>
      cases hs
      exact .produce
  | consume =>
      simp only [step] at hs
      split at hs
      · cases hs
      · cases hs
        exact .consume ‹_›

/-! ## The invariant -/

/-- In particular a waiter that will not be unparked has its token (`owed`). -/
structure Inv (s : Rendezvous α) : Prop where
  flag : s.response.writer = s.writer.alive
  made : s.phase = .new ↔ s.writer = .none
  early : s.phase.beforeTake = true → s.result = none
  ended : s.phase = .taking ∨ s.phase = .destroyed ∨ s.result.isSome = true →
    s.writer.alive = false
  unset : s.writer = .none ∨ s.writer = .held → s.wasSet = none
  item : s.result = none → s.response.item = s.wasSet
  result : ∀ r, s.result = some r → r = s.wasSet
  owed : ∀ loop, s.phase = .parked loop → s.writer = .dropped → s.token = true

theorem inv_new : (new : Rendezvous α).Inv where
  flag := rfl
  made := ⟨fun _ => rfl, fun _ => rfl⟩
  early _ := rfl
  ended := by rintro (hph | hph | hresult) <;> contradiction
  unset _ := rfl
  item _ := rfl
  result _ hr := by cases hr
  owed _ hph := by cases hph

/-- While the writer is alive, nothing was read and nothing is destroyed. -/
theorem Inv.result_none (h : s.Inv) (halive : s.writer.alive = true) :
    s.phase ≠ .taking ∧ s.phase ≠ .destroyed ∧ s.result = none := by
  refine ⟨fun hph => ?_, fun hph => ?_, ?_⟩
  · rw [h.ended (Or.inl hph)] at halive
    cases halive
  · rw [h.ended (Or.inr (Or.inl hph))] at halive
    cases halive
  · cases hresult : s.result with
    | none => rfl
    | some r =>
        rw [h.ended (Or.inr (Or.inr (by rw [hresult]; rfl)))] at halive
        cases halive

theorem Inv.goOn (h : s.Inv) {phase : WaiterPhase} {token : Bool} (hnew : s.phase ≠ .new)
    (hearly : phase.beforeTake = true → s.phase.beforeTake = true)
    (hphase : ∃ loop, phase = .loading loop) : ({ s with phase, token } : Rendezvous α).Inv := by
  obtain ⟨loop, rfl⟩ := hphase
  refine ⟨h.flag, ⟨fun hph => (by cases hph), fun hw => absurd (h.made.mpr hw) hnew⟩,
    fun hb => h.early (hearly hb), ?_, h.unset, h.item, h.result, fun _ hph => by cases hph⟩
  rintro (hph | hph | hresult)
  · cases hph
  · cases hph
  · exact h.ended (Or.inr (Or.inr hresult))

theorem makeWriter_inv (h : s.Inv) (hph : s.phase = .new) : s.makeWriter.Inv := by
  have hnone := h.made.mp hph
  have hflag : s.response.writer = false := by rw [h.flag, hnone]; rfl
  have hresult : s.result = none := h.early (by rw [hph]; rfl)
  unfold makeWriter
  rw [hflag]
  refine ⟨rfl, ⟨fun hph => (by cases hph), fun hw => (by cases hw)⟩, fun _ => hresult, ?_,
    fun _ => h.unset (Or.inl hnone), h.item, h.result, fun _ hph => by cases hph⟩
  rintro (hph | hph | hsome)
  · cases hph
  · cases hph
  · rw [show s.result = none from hresult] at hsome
    cases hsome

theorem load_inv (h : s.Inv) {loop : WaitLoop} (hph : s.phase = .loading loop) :
    (s.load loop).Inv := by
  have hmade : ∀ {phase : WaiterPhase}, phase ≠ .new → (phase = .new ↔ s.writer = .none) := by
    intro phase hnew
    refine ⟨fun hphase => absurd hphase hnew, fun hw => ?_⟩
    rw [h.made.mpr hw] at hph
    cases hph
  unfold load
  split
  · rename_i hflag
    -- the writer was alive, and when it is not it has left a token
    have halive : s.writer.alive = true := h.flag.symm.trans hflag
    refine ⟨h.flag, hmade (by simp), fun hb => h.early ?_, ?_, h.unset, h.item, h.result, ?_⟩
    · rw [hph]
      cases loop with
      | wait => rfl
      | drop => cases hb
    · rintro (hph | hph | hresult)
      · cases hph
      · cases hph
      · exact h.ended (Or.inr (Or.inr hresult))
    · intro _ _ hw
      rw [show s.writer = .dropped from hw] at halive
      cases halive
  · rename_i hflag
    have hdead : s.writer.alive = false := by rw [← h.flag]; simpa using hflag
    split
    · exact ⟨h.flag, hmade (by simp), fun _ => h.early (by rw [hph]; rfl), fun _ => hdead, h.unset,
        h.item, h.result, fun _ hph => by cases hph⟩
    · exact ⟨h.flag, hmade (by simp), fun hb => (by cases hb), fun _ => hdead, h.unset, h.item,
        h.result, fun _ hph => by cases hph⟩

theorem take_inv (h : s.Inv) (hph : s.phase = .taking) : s.take.Inv := by
  have hitem := h.item (h.early (by rw [hph]; rfl))
  refine ⟨h.flag, ⟨fun hph => (by cases hph), fun hw => ?_⟩, fun hb => (by cases hb),
    fun _ => h.ended (Or.inl hph), h.unset, fun hr => (by cases hr), ?_, fun _ hph => by cases hph⟩
  · rw [h.made.mpr hw] at hph
    cases hph
  · rintro r ⟨⟩
    exact hitem

theorem set_inv (h : s.Inv) (hw : s.writer = .held) (value : α) : (s.set value).Inv := by
  have halive : s.writer.alive = true := by rw [hw]; rfl
  have hflag : s.response.writer = true := h.flag.trans halive
  obtain ⟨htaking, hdestroyed, hresult⟩ := h.result_none halive
  unfold set
  rw [hflag]
  refine ⟨hflag, ⟨fun hph => ?_, fun hw => (by cases hw)⟩, h.early, ?_, ?_, fun _ => rfl, ?_,
    fun _ _ hw => by cases hw⟩
  · rw [h.made.mp hph] at hw
    cases hw
  · rintro (hph | hph | hsome)
    · exact absurd hph htaking
    · exact absurd hph hdestroyed
    · rw [show s.result = none from hresult] at hsome
      cases hsome
  · rintro (hw | hw) <;> cases hw
  · intro r hr
    rw [show s.result = some r from hr] at hresult
    cases hresult

theorem clear_inv (h : s.Inv) (halive : s.writer.alive = true) (party : Party) :
    (s.clear party).Inv := by
  refine ⟨rfl, ⟨fun hph => ?_, fun hw => (by cases hw)⟩, h.early, fun _ => rfl, ?_, h.item,
    h.result, fun _ _ hw => by cases hw⟩
  · rw [h.made.mp hph] at halive
    cases halive
  · rintro (hw | hw) <;> cases hw

theorem step_inv (h : s.Inv) {a : RendezvousAction α} (hs : s.step a = some s') : s'.Inv := by
  have hnew : ∀ {phase : WaiterPhase}, s.phase = phase → phase ≠ .new → s.phase ≠ .new := by
    rintro phase rfl hne
    exact hne
  cases step_cases hs with
  | writer hph => exact makeWriter_inv h hph
  | enqueue => exact ⟨h.flag, h.made, h.early, h.ended, h.unset, h.item, h.result, h.owed⟩
  | refused hph | pushed hph | unwind hph =>
      exact h.goOn (hnew hph (by simp)) (fun _ => by rw [hph]; rfl) ⟨_, rfl⟩
  | load hph => exact load_inv h hph
  | @park loop hph | @spurious loop hph =>
      refine h.goOn (hnew hph (by simp)) (fun hb => ?_) ⟨_, rfl⟩
      rw [hph]
      cases loop with
      | wait => rfl
      | drop => cases hb
  | take hph => exact take_inv h hph
  | @set value hw => exact set_inv h hw value
  | @clear party halive => exact clear_inv h halive party
  | unpark hw =>
      refine ⟨?_, ⟨fun hph => ?_, fun hw => (by cases hw)⟩, h.early, fun _ => rfl, ?_, h.item,
        h.result, fun _ _ _ => rfl⟩
      · rw [h.flag, hw]
        rfl
      · rw [h.made.mp hph] at hw
        cases hw
      · rintro (hw | hw) <;> cases hw
  | produce =>
      exact ⟨h.flag, h.made, h.early, h.ended, h.unset, h.item, h.result, fun _ _ _ => rfl⟩
  | consume hph =>
      exact ⟨h.flag, h.made, h.early, h.ended, h.unset, h.item, h.result,
        fun loop hparked => absurd hparked (hph loop)⟩

/-! ## The handshake -/

/-- The writer has made its last access. -/
structure Released (s : Rendezvous α) : Prop where
  made : s.phase ≠ .new
  dead : s.writer.alive = false

theorem Released.step (h : s.Released) {a : RendezvousAction α} (hs : s.step a = some s') :
    a.accesses = false ∧ s'.Released := by
  cases step_cases hs with
  | writer hph => exact absurd hph h.made
  | enqueue | produce | consume => exact ⟨rfl, h.made, h.dead⟩
  | refused | pushed | unwind | park | spurious | take =>
      exact ⟨rfl, by simp [Rendezvous.take], h.dead⟩
  | @load loop =>
      refine ⟨rfl, ?_, ?_⟩
      · unfold Rendezvous.load
        split
        · simp
        · split <;> simp
      · unfold Rendezvous.load
        split
        · exact h.dead
        · split <;> exact h.dead
  | set hw =>
      have hdead := h.dead
      rw [hw] at hdead
      cases hdead
  | clear halive =>
      rw [h.dead] at halive
      cases halive
  | unpark => exact ⟨rfl, h.made, rfl⟩

theorem Released.runs (h : s.Released) {bs : List (RendezvousAction α)}
    (hrun : Lts.runs Rendezvous.step s bs = some s') : ∀ a ∈ bs, a.accesses = false := by
  induction bs generalizing s with
  | nil => exact fun a ha => absurd ha List.not_mem_nil
  | cons b bs ih =>
      obtain ⟨t, hs, hrest⟩ := Lts.runs_cons_eq_some.mp hrun
      obtain ⟨hb, hnext⟩ := h.step hs
      intro a ha
      rcases List.mem_cons.mp ha with rfl | ha
      · exact hb
      · exact ih hnext hrest a ha

/-- What the waiting thread and the writer rely on: the item is read and the
`Completion` destroyed after the last access of the writer, `wait` returns what
was set, and no wake is lost. -/
structure Safe (s : Rendezvous α) : Prop where
  destroyed : s.phase = .destroyed → s.writer.alive = false
  last : s.phase = .taking ∨ s.phase = .destroyed →
    ∀ bs s', Lts.runs step s bs = some s' → ∀ a ∈ bs, a.accesses = false
  returned : ∀ r, s.result = some r → ∀ value, r = some value ↔ s.wasSet = some value
  awake : ∀ loop, s.writer = .dropped → s.phase = .parked loop → s.token = true

theorem completion_handshake {as : List (RendezvousAction α)}
    (hrun : Lts.runs step new as = some s) : s.Safe := by
  have h : s.Inv := Lts.runs_invariant (fun _ _ _ h hs => step_inv h hs) inv_new hrun
  refine ⟨fun hph => h.ended (Or.inr (Or.inl hph)), fun hph bs s' hrest => ?_, fun r hr value => ?_,
    fun loop hw hph => h.owed loop hph hw⟩
  · have hover : s.writer.alive = false := by
      rcases hph with hph | hph
      · exact h.ended (Or.inl hph)
      · exact h.ended (Or.inr (Or.inl hph))
    have hnew : s.phase ≠ .new := by
      rcases hph with hph | hph <;> simp [hph]
    exact Released.runs ⟨hnew, hover⟩ hrest
  · rw [h.result r hr]

/-- A call that is answered while it is parked. -/
theorem completion_handshake_set :
    ∃ s : Rendezvous Nat, Lts.runs step new [.writer, .enqueue, .pushed, .load, .set 7,
      .clear .other, .unpark, .park, .load, .take, .load] = some s ∧ s.result = some (some 7) ∧
      s.phase = .destroyed ∧ s.Safe := by
  refine ⟨_, rfl, rfl, rfl, ?_⟩
  exact completion_handshake (rfl : Lts.runs step new [.writer, .enqueue, .pushed, .load, .set 7,
    .clear .other, .unpark, .park, .load, .take, .load] = _)

end Rendezvous

end Audioipc

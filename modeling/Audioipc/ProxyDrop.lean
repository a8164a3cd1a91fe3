import Mathlib.Data.List.Nodup
import Audioipc.EventLoop
import Audioipc.Slab

/-!
# The drop of the proxies of a connection

`Proxy::drop` reads `live_proxies`, releases its weak reference and pushes a
wake if it had read 1; the wake is lost if the queue of the loop is full.
The connection is to end when its last proxy is gone: the next time the loop
handles it, `check_live_proxies` fails (`flushOutbound_without_proxies`), so
somebody has to make the loop handle it once more.

`holders` are the proxies that have not released their reference. Whoever
has read 1 is the only one left (`Inv.alone`), but the last one to release
need not have read 1: two that read before either releases both read 2.
-/

namespace Audioipc

/-- Without proxies a connection is removed as soon as the loop gets to
`flush_outbound`. -/
theorem flushOutbound_without_proxies {P Req Resp : Type} [Bincode Req]
    [AssociateHandleForMessage Req] [AssociateHandleForMessage Resp]
    {c : ClientConnection P Req Resp} (hlive : c.driver.handler.handler = .live)
    (hproxies : c.driver.handler.proxies = 0) (done : Bool) (e : RpcAction (Item Req)) :
    ∃ c', c.flushOutbound clientOps done e = some c' ∧ c'.phase = .removed := by
  have hproduce : clientOps.produce e c.driver.handler =
      some (.error .connectionAborted, c.driver.handler) := by
    simp only [clientOps, ClientRpc.produce, hlive, hproxies, if_true]
    rfl
  unfold Connection.flushOutbound FramedDriver.flushItem
  rw [hproduce]
  exact ⟨_, rfl, rfl⟩

abbrev ProxyId := Nat

/-- Where a proxy is, up to the end of its drop: it has `read` `live_proxies`,
and it has released its reference and is about to push `WakeConnection`
(`waking`). -/
inductive ProxyPhase where
  | connected
  | read (lastProxy : Nat)
  | waking
  | dropped
deriving Repr, DecidableEq

def ProxyPhase.holds : ProxyPhase → Bool
  | .connected | .read _ => true
  | _ => false

theorem ProxyPhase.not_holds {ph : ProxyPhase} (h : ph.holds = false) :
    ph = .waking ∨ ph = .dropped := by
  cases ph with
  | waking => exact Or.inl rfl
  | dropped => exact Or.inr rfl
  | _ => cases h

/-- A request of the loop; `late` is whether no proxy had a reference any
more when it was pushed. -/
structure QueuedRequest where
  request : Request Unit
  late : Bool
deriving Repr, DecidableEq

/-- `holders` are the proxies that have a weak reference, and `registered` is
whether the connection is in the slab. -/
structure ProxyDrops where
  token : Token
  proxies : ProxyId → Option ProxyPhase
  next : ProxyId
  holders : List ProxyId
  registered : Bool
  exited : Bool
  queue : List QueuedRequest

/-- A drop is `read`, where `strong` is whether some call is in `push` or a
loop that has exited is not dropped yet, `release`, and `pushWake` if it had
read 1. `traffic` is any other request, of this connection's callers or of
others. The loop handles a request or an event, where `done` is whether the
connection ends for another reason than the lack of proxies, or exits as `poll`
fails. -/
inductive ProxyAction where
  | clone (p : ProxyId)
  | read (p : ProxyId) (strong : Bool)
  | release (p : ProxyId)
  | pushWake (p : ProxyId)
  | traffic (r : Request Unit)
  | pop (done : Bool)
  | event (done : Bool)
  | exit

namespace ProxyDrops

def bound (token : Token) : ProxyDrops where
  token
  proxies := fun p => if p = 0 then some .connected else none
  next := 1
  holders := [0]
  registered := true
  exited := false
  queue := []

def setProxy (s : ProxyDrops) (p : ProxyId) (ph : ProxyPhase) : ProxyDrops :=
  { s with proxies := Function.update s.proxies p (some ph) }

/-- `Weak::weak_count` is 0 when there is no strong reference. -/
def liveProxies (s : ProxyDrops) (strong : Bool) : Nat :=
  if (s.registered && !s.exited) || strong then s.holders.length else 0

def push (s : ProxyDrops) (r : Request Unit) : ProxyDrops :=
  if s.queue.length < EVENT_LOOP_INITIAL_CLIENTS then
    { s with queue := s.queue ++ [⟨r, s.holders.isEmpty⟩] }
  else s

def handle (s : ProxyDrops) (done : Bool) : ProxyDrops :=
  if s.registered && (s.holders.isEmpty || done) then { s with registered := false } else s

def step (s : ProxyDrops) : ProxyAction → Option ProxyDrops
  | .clone p =>
      match s.proxies p with
      | some .connected => some { s.setProxy s.next .connected with
          next := s.next + 1, holders := s.next :: s.holders }
      | _ => none
  | .read p strong =>
      match s.proxies p with
      | some .connected => some (s.setProxy p (.read (s.liveProxies strong)))
      | _ => none
  | .release p =>
      match s.proxies p with
      | some (.read lastProxy) =>
          some { s.setProxy p (if lastProxy = 1 then .waking else .dropped) with
            holders := s.holders.erase p }
      | _ => none
  | .pushWake p =>
      match s.proxies p with
      | some .waking => some ((s.setProxy p .dropped).push (.wakeConnection s.token))
      | _ => none
  | .traffic r => some (s.push r)
  | .pop done =>
      match s.exited, s.queue with
      | false, q :: queue =>
          let s := { s with queue }
          match q.request with
          | .shutdown => some { s with exited := true }
          | .wakeConnection token => some (if token = s.token then s.handle done else s)
          | .addConnection _ => some s
      | _, _ => none
  | .event done => if s.exited then none else some (s.handle done)
  | .exit => some { s with exited := true }

def Finished (s : ProxyDrops) : Prop := ∀ p ph, s.proxies p = some ph → ph = .dropped

/-- A wake for the connection is queued that was pushed after the last
reference was released. -/
def WakeQueued (s : ProxyDrops) : Prop := ⟨.wakeConnection s.token, true⟩ ∈ s.queue

def Retired (s : ProxyDrops) : Prop := s.registered = false ∨ s.exited = true ∨ s.WakeQueued

/-! ## The proxies -/

/-- In particular whoever has read 1 is the only one left (`alone`). -/
structure Inv (s : ProxyDrops) : Prop where
  fresh : ∀ p, s.next ≤ p → s.proxies p = none
  holds : ∀ p, p ∈ s.holders ↔ ∃ ph, s.proxies p = some ph ∧ ph.holds = true
  nodup : s.holders.Nodup
  alone : ∀ p, s.proxies p = some (.read 1) → s.holders = [p]
  waking : ∀ p, s.proxies p = some .waking → s.holders = []
  one : ∀ p q, s.proxies p = some .waking → s.proxies q = some .waking → p = q
  late : ∀ q ∈ s.queue, q.late = true → s.holders = []

variable {s s' : ProxyDrops} {p : ProxyId}

theorem inv_bound (token : Token) : (bound token).Inv := by
  have hproxies : ∀ p ph, (bound token).proxies p = some ph → p = 0 ∧ ph = .connected := by
    intro p ph hp
    simp only [bound] at hp
    split at hp
    · exact ⟨‹_›, (Option.some.inj hp).symm⟩
    · cases hp
  refine ⟨fun p hle => ?_, fun p => ⟨fun hin => ?_, ?_⟩, List.nodup_singleton _, fun p hp => ?_,
    fun p hp => ?_, fun p q hp => ?_, fun q hq => absurd hq List.not_mem_nil⟩
  · exact if_neg (Nat.ne_of_gt hle)
  · rw [List.mem_singleton.mp hin]
    exact ⟨.connected, rfl, rfl⟩
  · rintro ⟨ph, hp, -⟩
    rw [(hproxies p ph hp).1]
    exact List.mem_singleton_self _
  · cases (hproxies p _ hp).2
  · cases (hproxies p _ hp).2
  · cases (hproxies p _ hp).2

theorem setProxy_cases {q : ProxyId} {ph ph' : ProxyPhase}
    (h : (s.setProxy p ph).proxies q = some ph') :
    (q = p ∧ ph' = ph) ∨ (q ≠ p ∧ s.proxies q = some ph') :=
  Slab.insert_cases h

theorem Inv.move (h : s.Inv) {ph ph' : ProxyPhase} (hp : s.proxies p = some ph)
    (hholds : ph'.holds = ph.holds) (halone : ph' = .read 1 → s.holders = [p])
    (hwaking : ph' ≠ .waking) : (s.setProxy p ph').Inv where
  fresh q hle := by
    have hne : q ≠ p := by
      rintro rfl
      rw [h.fresh q hle] at hp
      cases hp
    simp only [setProxy, Function.update_of_ne hne, h.fresh q hle]
  holds q := by
    show q ∈ s.holders ↔ _
    rw [h.holds q]
    by_cases hq : q = p
    · subst hq
      simp [setProxy, hp, hholds]
    · simp [setProxy, hq]
  nodup := h.nodup
  alone q hq := by
    rcases setProxy_cases hq with ⟨rfl, heq⟩ | ⟨-, hq⟩
    · exact halone heq.symm
    · exact h.alone q hq
  waking q hq := by
    rcases setProxy_cases hq with ⟨-, heq⟩ | ⟨-, hq⟩
    · exact absurd heq.symm hwaking
    · exact h.waking q hq
  one q r hq hr := by
    rcases setProxy_cases hq with ⟨-, heq⟩ | ⟨-, hq⟩
    · exact absurd heq.symm hwaking
    · rcases setProxy_cases hr with ⟨-, heq⟩ | ⟨-, hr⟩
      · exact absurd heq.symm hwaking
      · exact h.one q r hq hr
  late := h.late

theorem Inv.push (h : s.Inv) (r : Request Unit) : (s.push r).Inv := by
  unfold ProxyDrops.push
  split
  · refine ⟨h.fresh, h.holds, h.nodup, h.alone, h.waking, h.one, fun q hq hlate => ?_⟩
    rcases List.mem_append.mp hq with hold | hnew
    · exact h.late q hold hlate
    · rw [List.mem_singleton.mp hnew] at hlate
      exact List.isEmpty_iff.mp hlate
  · exact h

theorem Inv.handle (h : s.Inv) (done : Bool) : (s.handle done).Inv := by
  unfold ProxyDrops.handle
  split
  · exact ⟨h.fresh, h.holds, h.nodup, h.alone, h.waking, h.one, h.late⟩
  · exact h

theorem clone_inv (h : s.Inv) (hs : s.step (.clone p) = some s') : s'.Inv := by
  simp only [step] at hs
  split at hs
  · rename_i hp
    cases hs
    have hmem : p ∈ s.holders := (h.holds p).mpr ⟨_, hp, rfl⟩
    have hnext : s.proxies s.next = none := h.fresh _ (Nat.le_refl _)
    -- somebody has a reference who has not begun to drop
    have hnonempty : s.holders ≠ [] := List.ne_nil_of_mem hmem
    have hnone : ∀ q, s.proxies q ≠ some (.read 1) := by
      intro q hq
      have hholders := h.alone q hq
      rw [hholders] at hmem
      rw [← List.mem_singleton.mp hmem, hp] at hq
      cases hq
    refine ⟨fun q hle => ?_, fun q => ?_, List.nodup_cons.mpr ⟨fun hin => ?_, h.nodup⟩,
      fun q hq => ?_, fun q hq => ?_, fun q r hq => ?_, fun q hq hlate => ?_⟩
    · have hlt : s.next < q := hle
      simp only [setProxy, Function.update_of_ne (Nat.ne_of_gt hlt), h.fresh q (Nat.le_of_lt hlt)]
    · show q ∈ s.next :: s.holders ↔ _
      rw [List.mem_cons, h.holds q]
      by_cases hq : q = s.next
      · subst hq
        simp [setProxy, ProxyPhase.holds]
      · simp [setProxy, hq]
    · obtain ⟨ph, hph, -⟩ := (h.holds _).mp hin
      rw [hnext] at hph
      cases hph
    · rcases setProxy_cases hq with ⟨-, heq⟩ | ⟨-, hq⟩
      · cases heq
      · exact absurd hq (hnone q)
    · rcases setProxy_cases hq with ⟨-, heq⟩ | ⟨-, hq⟩
      · cases heq
      · exact absurd (h.waking q hq) hnonempty
    · rcases setProxy_cases hq with ⟨-, heq⟩ | ⟨-, hq⟩
      · cases heq
      · exact absurd (h.waking q hq) hnonempty
    · exact absurd (h.late q hq hlate) hnonempty
  · cases hs

structure Released (s s' : ProxyDrops) (p : ProxyId) (lastProxy : Nat) : Prop where
  read : s.proxies p = some (.read lastProxy)
  holds : p ∈ s.holders
  eq : s' = { s.setProxy p (if lastProxy = 1 then .waking else .dropped) with
    holders := s.holders.erase p }

theorem step_release (h : s.Inv) (hs : s.step (.release p) = some s') :
    ∃ lastProxy, Released s s' p lastProxy := by
  simp only [step] at hs
  split at hs
  · rename_i lastProxy hp
    cases hs
    exact ⟨lastProxy, hp, (h.holds p).mpr ⟨_, hp, rfl⟩, rfl⟩
  · cases hs

theorem release_inv (h : s.Inv) {lastProxy : Nat} (hr : Released s s' p lastProxy) : s'.Inv := by
  obtain ⟨hp, hmem, rfl⟩ := hr
  have hnonempty : s.holders ≠ [] := List.ne_nil_of_mem hmem
  have hlast : lastProxy = 1 → s.holders.erase p = [] := by
    rintro rfl
    rw [h.alone p hp]
    simp
  refine ⟨fun q hle => ?_, fun q => ?_, h.nodup.erase _, fun q hq => ?_, fun q hq => ?_,
    fun q r hq hr => ?_, fun q hq hlate => absurd (h.late q hq hlate) hnonempty⟩
  · have hne : q ≠ p := by
      rintro rfl
      rw [h.fresh q hle] at hp
      cases hp
    simp only [setProxy, Function.update_of_ne hne]
    exact h.fresh q hle
  · show q ∈ s.holders.erase p ↔ _
    by_cases hq : q = p
    · subst hq
      have hgone : q ∉ s.holders.erase q := h.nodup.not_mem_erase
      refine ⟨fun hin => absurd hin hgone, ?_⟩
      rintro ⟨ph, hph, hholds⟩
      rcases setProxy_cases hph with ⟨-, rfl⟩ | ⟨hne, -⟩
      · split at hholds <;> cases hholds
      · exact absurd rfl hne
    · rw [List.mem_erase_of_ne hq, h.holds q]
      simp [setProxy, hq]
  · rcases setProxy_cases hq with ⟨-, heq⟩ | ⟨hne, hq⟩
    · split at heq <;> cases heq
    · have hholders := h.alone q hq
      rw [hholders] at hmem
      exact absurd (List.mem_singleton.mp hmem).symm hne
  · rcases setProxy_cases hq with ⟨-, heq⟩ | ⟨-, hq⟩
    · split at heq
      · exact hlast ‹_›
      · cases heq
    · exact absurd (h.waking q hq) hnonempty
  · rcases setProxy_cases hq with ⟨rfl, -⟩ | ⟨-, hq⟩
    · rcases setProxy_cases hr with ⟨rfl, -⟩ | ⟨-, hr⟩
      · rfl
      · exact absurd (h.waking r hr) hnonempty
    · exact absurd (h.waking q hq) hnonempty

theorem step_inv (h : s.Inv) {a : ProxyAction} (hs : s.step a = some s') : s'.Inv := by
  cases a with
  | clone p => exact clone_inv h hs
  | read p strong =>
      simp only [step] at hs
      split at hs
      · rename_i hp
        cases hs
        refine h.move hp rfl (fun hread => ?_) nofun
        have hmem : p ∈ s.holders := (h.holds p).mpr ⟨_, hp, rfl⟩
        have hcount : s.liveProxies strong = 1 := ProxyPhase.read.inj hread
        unfold liveProxies at hcount
        split at hcount
        · obtain ⟨q, hq⟩ := List.length_eq_one_iff.mp hcount
          rw [hq] at hmem
          rw [hq, List.mem_singleton.mp hmem]
        · cases hcount
      · cases hs
  | release p =>
      obtain ⟨lastProxy, hr⟩ := step_release h hs
      exact release_inv h hr
  | pushWake p =>
      simp only [step] at hs
      split at hs
      · rename_i hp
        cases hs
        have hmoved : (s.setProxy p .dropped).Inv := h.move hp rfl nofun nofun
        exact hmoved.push _
      · cases hs
  | traffic r =>
      cases hs
      exact h.push r
  | pop done =>
      simp only [step] at hs
      split at hs
      · rename_i q queue _ hqueue
        have hpopped : ({ s with queue } : ProxyDrops).Inv :=
          ⟨h.fresh, h.holds, h.nodup, h.alone, h.waking, h.one, fun q' hq' =>
            h.late q' (hqueue ▸ List.mem_cons_of_mem _ hq')⟩
        split at hs <;> cases hs
        · exact ⟨hpopped.fresh, hpopped.holds, hpopped.nodup, hpopped.alone, hpopped.waking,
            hpopped.one, hpopped.late⟩
        · split
          · exact hpopped.handle done
          · exact hpopped
        · exact hpopped
      · cases hs
  | event done =>
      simp only [step] at hs
      split at hs
      · cases hs
      · cases hs
        exact h.handle done
  | exit =>
      cases hs
      exact ⟨h.fresh, h.holds, h.nodup, h.alone, h.waking, h.one, h.late⟩

/-! ## The end of the connection -/

/-- Once no reference is left, the connection is about to end, or one of the
proxies is about to see to it. -/
def Retiring (s : ProxyDrops) : Prop :=
  s.holders = [] → s.Retired ∨ ∃ p, s.proxies p = some .waking

/-- The property is kept: after the step the connection is about to end, if
all proxies have been dropped. -/
def KeepsRetired (s : ProxyDrops) (a : ProxyAction) : Prop :=
  ∀ s', s.step a = some s' → s'.Finished → s'.Retired

/-- While the connection and the loop are there, whoever releases the last
reference has read 1, and the wake finds room. -/
def Wakes (s : ProxyDrops) : ProxyAction → Prop
  | .release p => s.holders = [p] → s.registered = true → s.exited = false →
      s.proxies p = some (.read 1)
  | .pushWake _ => s.registered = true → s.exited = false →
      s.queue.length < EVENT_LOOP_INITIAL_CLIENTS ∨ s.WakeQueued
  | _ => True

instance (s : ProxyDrops) : Decidable s.WakeQueued :=
  inferInstanceAs (Decidable (_ ∈ s.queue))

instance (s : ProxyDrops) : ∀ a, Decidable (s.Wakes a)
  | .release p => inferInstanceAs (Decidable (s.holders = [p] → s.registered = true →
      s.exited = false → s.proxies p = some (.read 1)))
  | .pushWake _ => inferInstanceAs (Decidable (s.registered = true → s.exited = false →
      s.queue.length < EVENT_LOOP_INITIAL_CLIENTS ∨ s.WakeQueued))
  | .clone _ | .read _ _ | .traffic _ | .pop _ | .event _ | .exit =>
      inferInstanceAs (Decidable True)

theorem Finished.holders (hf : s.Finished) (h : s.Inv) : s.holders = [] := by
  refine List.eq_nil_iff_forall_not_mem.mpr fun p hin => ?_
  obtain ⟨ph, hp, hholds⟩ := (h.holds p).mp hin
  rw [hf p ph hp] at hholds
  cases hholds

theorem Finished.retired (hf : s.Finished) (h : s.Inv) (hret : s.Retiring) : s.Retired := by
  rcases hret (hf.holders h) with hretired | ⟨p, hp⟩
  · exact hretired
  · cases hf p _ hp

theorem dropped_of_not_holds (h : s.Inv) (hholders : s.holders ≠ []) {ph : ProxyPhase}
    (hout : p ∉ s.holders) (hp : s.proxies p = some ph) : ph = .dropped := by
  cases hholds : ph.holds with
  | true => exact absurd ((h.holds p).mpr ⟨ph, hp, hholds⟩) hout
  | false =>
      rcases ProxyPhase.not_holds hholds with rfl | rfl
      · exact absurd (h.waking p hp) hholders
      · rfl

/-- Only one proxy is about to wake the connection, when the others have been
dropped. -/
theorem dropped_of_waking (h : s.Inv) {q : ProxyId} {ph : ProxyPhase}
    (hp : s.proxies p = some .waking) (hne : q ≠ p) (hq : s.proxies q = some ph) :
    ph = .dropped := by
  cases hholds : ph.holds with
  | true =>
      have hmem := (h.holds q).mpr ⟨ph, hq, hholds⟩
      rw [h.waking p hp] at hmem
      cases hmem
  | false =>
      rcases ProxyPhase.not_holds hholds with rfl | rfl
      · exact absurd (h.one q p hq hp) hne
      · rfl

@[simp] theorem push_registered (s : ProxyDrops) (r : Request Unit) :
    (s.push r).registered = s.registered := by
  unfold ProxyDrops.push
  split <;> rfl

@[simp] theorem push_exited (s : ProxyDrops) (r : Request Unit) :
    (s.push r).exited = s.exited := by
  unfold ProxyDrops.push
  split <;> rfl

@[simp] theorem push_proxies (s : ProxyDrops) (r : Request Unit) :
    (s.push r).proxies = s.proxies := by
  unfold ProxyDrops.push
  split <;> rfl

@[simp] theorem push_holders (s : ProxyDrops) (r : Request Unit) :
    (s.push r).holders = s.holders := by
  unfold ProxyDrops.push
  split <;> rfl

theorem WakeQueued.push (hw : s.WakeQueued) (r : Request Unit) : (s.push r).WakeQueued := by
  unfold ProxyDrops.push
  split
  · exact List.mem_append_left _ hw
  · exact hw

theorem Retired.push (hr : s.Retired) (r : Request Unit) : (s.push r).Retired := by
  rcases hr with hgone | hexited | hw
  · exact Or.inl ((push_registered s r).trans hgone)
  · exact Or.inr (Or.inl ((push_exited s r).trans hexited))
  · exact Or.inr (Or.inr (hw.push r))

theorem handle_retired (hholders : s.holders = []) (done : Bool) :
    (s.handle done).registered = false := by
  unfold ProxyDrops.handle
  rw [hholders]
  cases hregistered : s.registered
  · exact hregistered
  · rfl

theorem Retiring.handle (hret : s.Retiring) (done : Bool) : (s.handle done).Retiring := by
  unfold ProxyDrops.handle
  split
  · exact fun _ => Or.inl (Or.inl rfl)
  · exact hret

/-- The loop takes a request off the queue: if it is the wake, the connection
goes. -/
theorem pop_retiring (h : s.Inv) (hret : s.Retiring) {done : Bool}
    (hs : s.step (.pop done) = some s') : s'.Retiring := by
  simp only [step] at hs
  split at hs
  · rename_i q queue _ hqueue
    by_cases hq : q = ⟨.wakeConnection s.token, true⟩
    · subst hq
      have hholders : s.holders = [] := h.late _ (by rw [hqueue]; exact List.mem_cons_self) rfl
      simp only [if_true] at hs
      cases hs
      exact fun _ => Or.inl (Or.inl (handle_retired (s := { s with queue }) hholders done))
    · have hpopped : ({ s with queue } : ProxyDrops).Retiring := by
        intro hholders
        rcases hret hholders with (hgone | hexited | hw) | hwaking
        · exact Or.inl (Or.inl hgone)
        · exact Or.inl (Or.inr (Or.inl hexited))
        · rw [WakeQueued, hqueue] at hw
          exact Or.inl (Or.inr (Or.inr ((List.mem_cons.mp hw).resolve_left (Ne.symm hq))))
        · exact Or.inr hwaking
      split at hs <;> cases hs
      · exact fun _ => Or.inl (Or.inr (Or.inl rfl))
      · split
        · exact hpopped.handle done
        · exact hpopped
      · exact hpopped
  · cases hs

/-- Whoever leaves no reference behind had the last one. -/
theorem Released.last {lastProxy : Nat} (hr : Released s s' p lastProxy)
    (hholders : s'.holders = []) : s.holders = [p] := by
  obtain ⟨-, hmem, rfl⟩ := hr
  exact (List.erase_eq_nil_iff.mp hholders).resolve_left (List.ne_nil_of_mem hmem)

theorem release_retiring (h : s.Inv) (hw : s.Wakes (.release p))
    (hs : s.step (.release p) = some s') : s'.Retiring := by
  obtain ⟨lastProxy, hr⟩ := step_release h hs
  intro hholders
  have hlast := hr.last hholders
  obtain ⟨hp, -, rfl⟩ := hr
  cases hregistered : s.registered with
  | false => exact Or.inl (Or.inl hregistered)
  | true =>
      cases hexited : s.exited with
      | true => exact Or.inl (Or.inr (Or.inl hexited))
      | false =>
          have hone := hw hlast hregistered hexited
          rw [hp] at hone
          cases hone
          exact Or.inr ⟨p, Function.update_self ..⟩

theorem pushWake_retiring (h : s.Inv) (hw : s.Wakes (.pushWake p))
    (hs : s.step (.pushWake p) = some s') : s'.Retiring := by
  simp only [step] at hs
  split at hs
  · rename_i hp
    have hholders := h.waking p hp
    cases hs
    refine fun _ => Or.inl ?_
    cases hregistered : s.registered with
    | false => exact Or.inl ((push_registered ..).trans hregistered)
    | true =>
        cases hexited : s.exited with
        | true => exact Or.inr (Or.inl ((push_exited ..).trans hexited))
        | false =>
            refine Or.inr (Or.inr ?_)
            rcases hw hregistered hexited with hroom | hqueued
            · have hroom' : (s.setProxy p .dropped).queue.length <
                EVENT_LOOP_INITIAL_CLIENTS := hroom
              rw [ProxyDrops.push, if_pos hroom', setProxy, hholders]
              exact List.mem_append_right _ (List.mem_singleton_self _)
            · have hqueued' : (s.setProxy p .dropped).WakeQueued := hqueued
              exact hqueued'.push _
  · cases hs

theorem step_retiring (h : s.Inv) (hret : s.Retiring) {a : ProxyAction} (hw : s.Wakes a)
    (hs : s.step a = some s') : s'.Retiring := by
  cases a with
  | clone p =>
      simp only [step] at hs
      split at hs <;> cases hs
      intro hholders
      cases hholders
  | read p strong =>
      simp only [step] at hs
      split at hs
      · rename_i hp
        cases hs
        have hmem : p ∈ s.holders := (h.holds p).mpr ⟨_, hp, rfl⟩
        exact fun hholders => absurd hholders (List.ne_nil_of_mem hmem)
      · cases hs
  | release p => exact release_retiring h hw hs
  | pushWake p => exact pushWake_retiring h hw hs
  | traffic r =>
      cases hs
      intro hholders
      rw [push_holders] at hholders
      rcases hret hholders with hretired | ⟨p, hp⟩
      · exact Or.inl (hretired.push r)
      · exact Or.inr ⟨p, by rw [push_proxies]; exact hp⟩
  | pop done => exact pop_retiring h hret hs
  | event done =>
      simp only [step] at hs
      split at hs <;> cases hs
      exact hret.handle done
  | exit =>
      cases hs
      exact fun _ => Or.inl (Or.inr (Or.inl rfl))

/-- A release with no wake to follow, or a wake that is lost, leaves the
connection behind. -/
theorem keepsRetired_iff (h : s.Inv) (hret : s.Retiring) {a : ProxyAction}
    (hs : s.step a = some s') : s.KeepsRetired a ↔ s.Wakes a := by
  refine ⟨fun hkeeps => ?_, fun hw s'' hs'' hf => ?_⟩
  · cases a with
    | release p =>
        intro hlast hregistered hexited
        obtain ⟨lastProxy, hp, hmem, rfl⟩ := step_release h hs
        by_contra hne
        have hmiss : lastProxy ≠ 1 := by
          rintro rfl
          exact hne hp
        rw [if_neg hmiss] at hs
        have hretired := hkeeps _ hs fun q ph hq => by
          rcases setProxy_cases hq with ⟨-, hph⟩ | ⟨hq', hq⟩
          · exact hph
          · -- nobody else has a reference or is about to wake the connection
            have hout : q ∉ s.holders := by
              rw [hlast]
              exact fun hin => hq' (List.mem_singleton.mp hin)
            exact dropped_of_not_holds h (List.ne_nil_of_mem hmem) hout hq
        rcases hretired with hgone | hexited' | hqueued
        · cases hregistered.symm.trans hgone
        · cases hexited.symm.trans hexited'
        · exact List.ne_nil_of_mem hmem (h.late _ hqueued rfl)
    | pushWake p =>
        intro hregistered hexited
        by_contra hlost
        have hfull : ¬s.queue.length < EVENT_LOOP_INITIAL_CLIENTS := fun hroom =>
          hlost (Or.inl hroom)
        have hs' := hs
        simp only [step] at hs'
        split at hs'
        · rename_i hp
          have hsame : s' = s.setProxy p .dropped := by
            cases hs'
            exact if_neg hfull
          subst hsame
          have hretired := hkeeps _ hs fun q ph hq => by
            rcases setProxy_cases hq with ⟨-, hph⟩ | ⟨hq', hq⟩
            · exact hph
            · exact dropped_of_waking h hp hq' hq
          rcases hretired with hgone | hexited' | hqueued
          · cases hregistered.symm.trans hgone
          · cases hexited.symm.trans hexited'
          · exact hlost (Or.inr hqueued)
        · cases hs'
    | _ => exact trivial
  · exact hf.retired (step_inv h hs'') (step_retiring h hret hw hs'')

/-- The loop by itself gets to the end of the connection, or exits. -/
def Ends (s : ProxyDrops) : Prop :=
  ∃ n s', Lts.runs step s (List.replicate n (.pop false)) = some s' ∧
    (s'.registered = false ∨ s'.exited = true)

theorem Ends.of_pop (hs : s.step (.pop false) = some s') (he : s'.Ends) : s.Ends := by
  obtain ⟨n, s'', hrun, hend⟩ := he
  exact ⟨n + 1, s'', Lts.runs_cons_eq_some.mpr ⟨s', hs, hrun⟩, hend⟩

/-- The loop gets to the wake, if it has not exited, by the requests before
it. -/
theorem WakeQueued.ends (hw : s.WakeQueued) (hholders : s.holders = [])
    (hexited : s.exited = false) : s.Ends := by
  generalize hqueue : s.queue = queue
  induction queue generalizing s with
  | nil =>
      rw [WakeQueued, hqueue] at hw
      cases hw
  | cons q queue ih =>
      have hrest : q ≠ ⟨.wakeConnection s.token, true⟩ →
          ({ s with queue } : ProxyDrops).Ends := by
        intro hne
        rw [WakeQueued, hqueue] at hw
        exact ih (s := { s with queue }) ((List.mem_cons.mp hw).resolve_left (Ne.symm hne))
          hholders hexited rfl
      obtain ⟨r, late⟩ := q
      cases r with
      | shutdown =>
          have hpop : s.step (.pop false) = some { s with queue, exited := true } := by
            simp only [step, hexited, hqueue]
          exact Ends.of_pop hpop ⟨0, _, rfl, Or.inr rfl⟩
      | wakeConnection token =>
          by_cases htoken : token = s.token
          · have hpop : s.step (.pop false) =
                some (({ s with queue } : ProxyDrops).handle false) := by
              simp only [step, hexited, hqueue, if_pos htoken]
            have hgone := handle_retired (s := { s with queue }) hholders false
            exact Ends.of_pop hpop ⟨0, _, rfl, Or.inl hgone⟩
          · have hpop : s.step (.pop false) = some { s with queue } := by
              simp only [step, hexited, hqueue, if_neg htoken]
            exact Ends.of_pop hpop (hrest fun heq => htoken (by cases heq; rfl))
      | addConnection conn =>
          have hpop : s.step (.pop false) = some { s with queue } := by
            simp only [step, hexited, hqueue]
          exact Ends.of_pop hpop (hrest nofun)

theorem Retired.ends (hr : s.Retired) (hholders : s.holders = []) : s.Ends := by
  rcases hr with hgone | hexited | hw
  · exact ⟨0, s, rfl, Or.inl hgone⟩
  · exact ⟨0, s, rfl, Or.inr hexited⟩
  · cases hexited : s.exited with
    | true => exact ⟨0, s, rfl, Or.inr hexited⟩
    | false => exact hw.ends hholders hexited

/-- The drops of the proxies of a connection see to its end throughout a run
just if, while the connection and the loop are there, whoever releases the
last reference has read 1 and the wake finds room; once they are through, the
loop by itself ends the connection. -/
theorem last_drop_retires {token : Token} {as : List ProxyAction}
    (hrun : Lts.runs step (bound token) as = some s) :
    (Lts.Within step KeepsRetired (bound token) as ↔ Lts.Within step Wakes (bound token) as) ∧
    (Lts.Within step Wakes (bound token) as → s.Finished → s.Retired ∧ s.Ends) := by
  let I := fun s : ProxyDrops => s.Inv ∧ s.Retiring
  have hstep : ∀ s a s', I s → s.Wakes a → s.step a = some s' → I s' :=
    fun _ _ _ hI hw hs => ⟨step_inv hI.1 hs, step_retiring hI.1 hI.2 hw hs⟩
  have hbound : I (bound token) := ⟨inv_bound token, fun hholders => nomatch hholders⟩
  refine ⟨?_, fun hw hf => ?_⟩
  · exact Lts.within_iff_of_runs hstep (fun _ _ _ hI hs => keepsRetired_iff hI.1 hI.2 hs)
      hbound hrun
  · obtain ⟨h, hret⟩ := Lts.runs_within_invariant hstep hbound hw hrun
    have hretired := hf.retired h hret
    exact ⟨hretired, hretired.ends (hf.holders h)⟩

/-! ## Three runs -/

theorem Inv.finished (h : s.Inv) (hall : ∀ p < s.next, s.proxies p = some .dropped) :
    s.Finished := by
  intro p ph hp
  by_cases hlt : p < s.next
  · exact Option.some.inj (hp.symm.trans (hall p hlt))
  · rw [h.fresh p (Nat.le_of_not_lt hlt)] at hp
    cases hp

theorem runs_inv {token : Token} {as : List ProxyAction}
    (hrun : Lts.runs step (bound token) as = some s) : s.Inv :=
  Lts.runs_invariant (fun _ _ _ h hs => step_inv h hs) (inv_bound token) hrun

/-- All proxies have been dropped, the connection and the loop are there, and
whether a wake is queued. -/
def leftover (s : ProxyDrops) : Bool × Bool × Bool × Bool :=
  (decide (∀ p < s.next, s.proxies p = some .dropped), s.registered, s.exited,
    decide s.WakeQueued)

theorem leftover_runs (token : Token) (as : List ProxyAction) {wakeQueued : Bool}
    (hrun : (Lts.runs step (bound token) as).map leftover =
      some (true, true, false, wakeQueued)) :
    ∃ s, Lts.runs step (bound token) as = some s ∧ s.Finished ∧
      (wakeQueued = false → ¬s.Retired) := by
  obtain ⟨s, hs, heq⟩ := Option.map_eq_some_iff.mp hrun
  simp only [leftover, Prod.mk.injEq, decide_eq_true_eq] at heq
  obtain ⟨hdropped, hregistered, hexited, hqueued⟩ := heq
  refine ⟨s, hs, (runs_inv hs).finished hdropped, ?_⟩
  rintro rfl (hgone | hexited' | hw)
  · cases hregistered.symm.trans hgone
  · cases hexited.symm.trans hexited'
  · exact of_decide_eq_false hqueued hw

/-- Two proxies of which the other one begins to drop when the first one has
released its reference. -/
theorem last_drop_retires_run :
    ∃ s, Lts.runs step (bound 0) [.clone 0, .read 0 false, .release 0, .read 1 false, .release 1,
      .pushWake 1] = some s ∧ s.Retired ∧ s.Ends := by
  obtain ⟨s, hs, hf, -⟩ := leftover_runs 0 [.clone 0, .read 0 false, .release 0, .read 1 false,
    .release 1, .pushWake 1] (by decide +kernel : _ = some (true, true, false, true))
  exact ⟨s, hs, (last_drop_retires hs).2 (by decide +kernel) hf⟩

/-- Two proxies that both read 2 wake nobody; and the wake of a single one is
lost when the queue is full. -/
theorem wake_missed_run :
    (∃ s, Lts.runs step (bound 0) [.clone 0, .read 0 false, .read 1 false, .release 0,
      .release 1] = some s ∧ s.Finished ∧ ¬s.Retired) ∧
    (∃ s, Lts.runs step (bound 0) (List.replicate 64 (.traffic (.wakeConnection 1)) ++
      [.read 0 false, .release 0, .pushWake 0]) = some s ∧ s.Finished ∧ ¬s.Retired) := by
  constructor
  · obtain ⟨s, hs, hf, hmissed⟩ := leftover_runs 0 [.clone 0, .read 0 false, .read 1 false,
      .release 0, .release 1] (by decide +kernel : _ = some (true, true, false, false))
    exact ⟨s, hs, hf, hmissed rfl⟩
  · obtain ⟨s, hs, hf, hmissed⟩ := leftover_runs 0
      (List.replicate 64 (.traffic (.wakeConnection 1)) ++ [.read 0 false, .release 0, .pushWake 0])
      (by decide +kernel : _ = some (true, true, false, false))
    exact ⟨s, hs, hf, hmissed rfl⟩

end ProxyDrops

end Audioipc

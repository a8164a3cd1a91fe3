import Audioipc.Devices
import Audioipc.Lts

/-!
# The registration with the backend

The manager registers its one callback with cubeb when its first subscriber
comes and unregisters it when the last one goes. `internal_register` does
this for the two directions one after the other and stops at the first
failure, with nothing to undo what came before: a failure between the two
leaves one direction as it was and the other not, and `unregister` has
removed the subscriber by then.

`registration_follows` says exactly which sequences of calls keep the
backend in step with the list: those in which no call stops half way
(`Completes`). `half_registered_run` is the shortest that does not.
-/

namespace Audioipc

structure Registration where
  context : Context
  manager : CubebDeviceCollectionManager
deriving Repr, DecidableEq

inductive RegistrationCall where
  | register (out : RegisterOutcome) (server : CallbacksId) (devtype : DeviceType)
  | unregister (out : RegisterOutcome) (server : CallbacksId) (devtype : DeviceType)

namespace Registration

def new : Registration := ⟨⟨false, false⟩, .new⟩

def call (s : Registration) : RegistrationCall → Except CubebError Unit × Registration
  | .register out server devtype =>
      let (r, context, manager) := s.manager.register out s.context server devtype
      (r, ⟨context, manager⟩)
  | .unregister out server devtype =>
      let (r, context, manager) := s.manager.unregister out s.context server devtype
      (r, ⟨context, manager⟩)

def step (s : Registration) (a : RegistrationCall) : Option Registration := some (s.call a).2

/-- The callback is registered for a direction exactly when there are
subscribers. -/
structure Follows (s : Registration) : Prop where
  input : s.manager.servers ≠ [] ↔ s.context.input = true
  output : s.manager.servers ≠ [] ↔ s.context.output = true

/-- A call after which the backend follows the list, and which leaves the
backend alone if it is a `register` that fails. -/
structure KeepsFollowing (s : Registration) (a : RegistrationCall) : Prop where
  follows : (s.call a).2.Follows
  failed : ∀ out server devtype e, a = .register out server devtype → (s.call a).1 = .error e →
    (s.call a).2.context = s.context

/-- The call does not stop half way: a first `register` whose input succeeds
has its output succeed as well, and the `unregister` of the last subscriber
succeeds for both. -/
def Completes (s : Registration) : RegistrationCall → Prop
  | .register out _ _ => s.manager.servers = [] → out.input.isOk → out.output.isOk
  | .unregister out server devtype => s.manager.servers ≠ [] →
      (s.manager.servers.filter fun (s, d) => s ≠ server ∨ d ≠ devtype) = [] →
        out.input.isOk ∧ out.output.isOk

variable {s : Registration}

theorem follows_new : new.Follows := ⟨by decide, by decide⟩

theorem follows_iff {context : Context} {servers : List (CallbacksId × DeviceType)} :
    Follows ⟨context, ⟨servers⟩⟩ ↔
      context.input = !servers.isEmpty ∧ context.output = !servers.isEmpty := by
  obtain ⟨input, output⟩ := context
  constructor
  · rintro ⟨hin, hout⟩
    cases servers <;> cases input <;> cases output <;> simp_all
  · rintro ⟨rfl, rfl⟩
    cases servers <;> exact ⟨by simp, by simp⟩

/-- What `internal_register` leaves, by which of its two calls fail. -/
theorem internalRegister_eq (out : RegisterOutcome) (enable : Bool) (context : Context) :
    (CubebDeviceCollectionManager.internalRegister out enable context).2 =
      ⟨if out.input.isOk then enable else context.input,
       if out.input.isOk ∧ out.output.isOk then enable else context.output⟩ := by
  obtain ⟨input, output⟩ := out
  cases input <;> cases output <;> rfl

theorem register_first (out : RegisterOutcome) (server : CallbacksId) (devtype : DeviceType) :
    KeepsFollowing new (.register out server devtype) ↔ (out.input.isOk → out.output.isOk) := by
  obtain ⟨input, output⟩ := out
  have hfollows : ∀ {context servers},
      (call new (.register ⟨input, output⟩ server devtype)).2 = ⟨context, ⟨servers⟩⟩ →
      (context.input = !servers.isEmpty ∧ context.output = !servers.isEmpty ↔
        (call new (.register ⟨input, output⟩ server devtype)).2.Follows) :=
    fun heq => by rw [heq, follows_iff]
  cases input with
  | error e =>
      refine ⟨fun _ => nofun, fun _ => ⟨(hfollows rfl).mp ⟨rfl, rfl⟩, ?_⟩⟩
      rintro out server devtype e heq -
      cases heq
      rfl
  | ok u =>
      cases output with
      | error e =>
          refine ⟨fun h => ?_, fun h => (nomatch h rfl)⟩
          cases ((hfollows rfl).mpr h.follows).1
      | ok u' =>
          refine ⟨fun _ _ => rfl, fun _ => ⟨(hfollows rfl).mp ⟨rfl, rfl⟩, ?_⟩⟩
          rintro out server devtype e heq herr
          cases heq
          cases herr

theorem Follows.eq_new (h : s.Follows) (hempty : s.manager.servers = []) : s = new := by
  obtain ⟨⟨input, output⟩, ⟨servers⟩⟩ := s
  obtain ⟨hin, hout⟩ := follows_iff.mp h
  cases hempty
  cases hin
  cases hout
  rfl

theorem register_iff (h : s.Follows) (out : RegisterOutcome) (server : CallbacksId)
    (devtype : DeviceType) :
    s.KeepsFollowing (.register out server devtype) ↔
      s.Completes (.register out server devtype) := by
  by_cases hempty : s.manager.servers = []
  · rw [h.eq_new hempty, register_first]
    exact ⟨fun h _ => h, fun h => h rfl⟩
  · -- the backend is not called
    have hcall : s.call (.register out server devtype) =
        (.ok (), ⟨s.context, ⟨s.manager.servers ++ [(server, devtype)]⟩⟩) := by
      simp [call, CubebDeviceCollectionManager.register, hempty]
    refine ⟨fun _ hs => absurd hs hempty, fun _ => ⟨?_, fun _ _ _ _ _ herr => ?_⟩⟩
    · have hadded : s.manager.servers ++ [(server, devtype)] ≠ [] := by simp
      rw [hcall]
      exact ⟨⟨fun _ => h.input.mp hempty, fun _ => hadded⟩,
        ⟨fun _ => h.output.mp hempty, fun _ => hadded⟩⟩
    · rw [hcall] at herr
      cases herr

theorem unregister_iff (h : s.Follows) (out : RegisterOutcome) (server : CallbacksId)
    (devtype : DeviceType) :
    s.KeepsFollowing (.unregister out server devtype) ↔
      s.Completes (.unregister out server devtype) := by
  have hkeeps : s.KeepsFollowing (.unregister out server devtype) ↔
      (s.call (.unregister out server devtype)).2.Follows :=
    ⟨fun h => h.follows, fun h => ⟨h, nofun⟩⟩
  rw [hkeeps]
  by_cases hleft : (s.manager.servers.filter fun (s, d) => s ≠ server ∨ d ≠ devtype) = []
  · have hcall : (s.call (.unregister out server devtype)).2 =
        ⟨(CubebDeviceCollectionManager.internalRegister out false s.context).2, ⟨[]⟩⟩ := by
      simp only [call, CubebDeviceCollectionManager.unregister, hleft, List.isEmpty_nil, if_true]
    rw [hcall, follows_iff, internalRegister_eq]
    by_cases hempty : s.manager.servers = []
    · rw [h.eq_new hempty]
      exact ⟨fun _ hs => absurd rfl hs, fun _ => ⟨by simp [new], by simp [new]⟩⟩
    · have hin : s.context.input = true := h.input.mp hempty
      have hout : s.context.output = true := h.output.mp hempty
      simp only [hin, hout, List.isEmpty_nil, Bool.not_true]
      constructor
      · rintro ⟨hin', hout'⟩ _ _
        have hoks : out.input.isOk = true ∧ out.output.isOk = true := by
          by_contra hfail
          rw [if_neg hfail] at hout'
          cases hout'
        exact hoks
      · intro hcompletes
        obtain ⟨hinOk, houtOk⟩ := hcompletes hempty hleft
        rw [if_pos hinOk, if_pos ⟨hinOk, houtOk⟩]
        exact ⟨rfl, rfl⟩
  · -- a subscriber is left, and the backend is not called
    have hne : s.manager.servers ≠ [] := fun hs => hleft (by rw [hs]; rfl)
    have hcall : (s.call (.unregister out server devtype)).2 =
        ⟨s.context, ⟨s.manager.servers.filter fun (s, d) => s ≠ server ∨ d ≠ devtype⟩⟩ := by
      unfold call CubebDeviceCollectionManager.unregister
      dsimp only
      rw [if_neg (by simpa using hleft)]
    rw [hcall]
    exact ⟨fun _ _ hs => absurd hs hleft, fun _ =>
      ⟨⟨fun _ => h.input.mp hne, fun _ => hleft⟩, ⟨fun _ => h.output.mp hne, fun _ => hleft⟩⟩⟩

theorem keepsFollowing_iff (h : s.Follows) (a : RegistrationCall) :
    s.KeepsFollowing a ↔ s.Completes a := by
  cases a with
  | register out server devtype => exact register_iff h out server devtype
  | unregister out server devtype => exact unregister_iff h out server devtype

/-- In a sequence of calls, the backend follows the list of subscribers
after every call exactly if no call stops half way. -/
theorem registration_follows (as : List RegistrationCall) :
    Lts.Within step KeepsFollowing new as ↔ Lts.Within step Completes new as :=
  Lts.within_iff_of_invariant (fun _ _ _ h hc ht =>
    Option.some.inj ht ▸ ((keepsFollowing_iff h _).mpr hc).follows)
    (fun _ a h => keepsFollowing_iff h a) follows_new

/-- The output of a first `register` fails: there is no subscriber, and the
input is registered. -/
theorem half_registered_run :
    let a : RegistrationCall := .register ⟨.ok (), .error .error⟩ 0 ⟨true, true⟩
    (new.call a).1 = .error .error ∧ (new.call a).2 = ⟨⟨true, false⟩, ⟨[]⟩⟩ ∧
      ¬ Lts.Within step KeepsFollowing new [a] := by
  refine ⟨rfl, rfl, fun h => ?_⟩
  cases (follows_iff.mp h.1.follows).1

end Registration

end Audioipc

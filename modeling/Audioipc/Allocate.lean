import Audioipc.Basic

/-!
# Allocation of shared memory

`allocate_file` and `handle_enospc` of `shm.rs`, on the Unix targets other
than Android. Which calls are compiled depends on the target; each is tried in
turn until one succeeds or is found to have failed for lack of space.

`fallocate` and `fcntl` set the thread's `errno`, and `handle_enospc` reads it.
`posix_fallocate` returns its error and leaves `errno` as it is, so what
`handle_enospc` reads after it is what an earlier call has left: the error of
`fallocate` on Linux, anything at all where nothing was tried before. The
verdict is right exactly if that value does not mislead (`allocate_file_heeds`).
-/

namespace Audioipc

structure Errno where
  code : Nat
  nonzero : code ≠ 0
deriving Repr, DecidableEq

/-- The same number on all targets. -/
def ENOSPC : Errno := ⟨28, by decide⟩

/-- `other` stands for the targets for which no call is compiled. -/
inductive UnixTarget where
  | linux
  | macos
  | freebsd
  | dragonfly
  | other
deriving Repr, DecidableEq

/-- `fcntl` is the call with `F_PREALLOCATE`. -/
inductive Preallocation where
  | fallocate
  | fcntl
  | posixFallocate
deriving Repr, DecidableEq

def UnixTarget.preallocations : UnixTarget → List Preallocation
  | .linux => [.fallocate, .posixFallocate]
  | .macos => [.fcntl]
  | .freebsd | .dragonfly => [.posixFallocate]
  | .other => []

structure AllocateOutcome where
  setLen : Except IoError Unit
  fallocate : Except Errno Unit
  fcntl : Except Errno Unit
  posixFallocate : Except Errno Unit

def AllocateOutcome.report (out : AllocateOutcome) : Preallocation → Except Errno Unit
  | .fallocate => out.fallocate
  | .fcntl => out.fcntl
  | .posixFallocate => out.posixFallocate

/-- `errno` after the call has failed with `e`. -/
def Preallocation.errnoAfter (errno : Nat) (e : Errno) : Preallocation → Nat
  | .fallocate | .fcntl => e.code
  | .posixFallocate => errno

/-- The `unwrap` of the size as an `off_t`, and `assert_ne!(errno, 0)`. -/
inductive AllocatePanic where
  | size
  | errno
deriving Repr, DecidableEq

/-- The result of a function that may panic. -/
abbrev Allocated := Except AllocatePanic (Except IoError Unit)

def handleEnospc (errno : Nat) : Allocated :=
  if errno = 0 then throw .errno
  else if errno = ENOSPC.code then return .error (.os errno)
  else return .ok ()

/-- The blocks of `allocate_file`, one for each call that is compiled. -/
def tryPreallocations (out : AllocateOutcome) : List Preallocation → Nat → Allocated
  | [], _ => return .ok ()
  | p :: ps, errno =>
      match out.report p with
      | .ok () => return .ok ()
      | .error e =>
          let errno := p.errnoAfter errno e
          match handleEnospc errno with
          | .error panic => throw panic
          | .ok (.error e) => return .error e
          | .ok (.ok ()) => tryPreallocations out ps errno

/-- `errno` is the value after `set_len`. -/
def allocateFile (target : UnixTarget) (errno : Nat) (out : AllocateOutcome) (size : UInt64) :
    Allocated :=
  match out.setLen with
  | .error e => return .error e
  | .ok () =>
      if 2 ^ 63 ≤ size.toNat then throw .size
      else tryPreallocations out target.preallocations errno

/-! ## Reports and verdicts -/

/-- A call reported `ENOSPC` before any succeeded. -/
def NoSpaceFirst (reports : List (Except Errno Unit)) : Prop :=
  ∃ before after, reports = before ++ .error ENOSPC :: after ∧ .ok () ∉ before

/-- What the reports of the calls demand of the result. -/
structure Heeds (result : Allocated) (reports : List (Except Errno Unit)) : Prop where
  panics : result ≠ .error .errno
  ok : result = .ok (.ok ()) → .ok () ∈ reports ∨ .error ENOSPC ∉ reports
  err : NoSpaceFirst reports → ∃ e, result = .ok (.error e)

theorem noSpaceFirst_cons_error {e : Errno} (h : e ≠ ENOSPC) (reports : List (Except Errno Unit)) :
    NoSpaceFirst (.error e :: reports) ↔ NoSpaceFirst reports := by
  constructor
  · rintro ⟨before, after, heq, hok⟩
    cases before with
    | nil =>
        cases heq
        exact absurd rfl h
    | cons r before =>
        obtain ⟨-, rfl⟩ := List.cons.inj heq
        exact ⟨before, after, rfl, fun hin => hok (List.mem_cons_of_mem _ hin)⟩
  · rintro ⟨before, after, rfl, hok⟩
    refine ⟨.error e :: before, after, rfl, fun hin => ?_⟩
    rcases List.mem_cons.mp hin with heq | hin
    · cases heq
    · exact hok hin

theorem not_noSpaceFirst_cons_ok (reports : List (Except Errno Unit)) :
    ¬ NoSpaceFirst (.ok () :: reports) := by
  rintro ⟨before, after, heq, hok⟩
  cases before with
  | nil => cases heq
  | cons r before =>
      obtain ⟨rfl, -⟩ := List.cons.inj heq
      exact hok (List.mem_cons_self ..)

theorem heeds_cons_error {e : Errno} (h : e ≠ ENOSPC) (result : Allocated)
    (reports : List (Except Errno Unit)) :
    Heeds result (.error e :: reports) ↔ Heeds result reports := by
  have hmem : ∀ r : Except Errno Unit, r ≠ .error e → (r ∈ .error e :: reports ↔ r ∈ reports) := by
    intro r hne
    refine ⟨fun hin => ?_, List.mem_cons_of_mem _⟩
    rcases List.mem_cons.mp hin with heq | hin
    · exact absurd heq hne
    · exact hin
  have hok := hmem (.ok ()) (by simp)
  have hnoSpace := hmem (.error ENOSPC) (fun heq => h (Except.error.inj heq).symm)
  constructor
  · rintro ⟨hpanics, hres, herr⟩
    rw [hok, hnoSpace] at hres
    rw [noSpaceFirst_cons_error h] at herr
    exact ⟨hpanics, hres, herr⟩
  · rintro ⟨hpanics, hres, herr⟩
    refine ⟨hpanics, ?_, ?_⟩
    · rw [hok, hnoSpace]
      exact hres
    · rw [noSpaceFirst_cons_error h]
      exact herr

theorem heeds_nil {result : Allocated} (h : result ≠ .error .errno) : Heeds result [] := by
  refine ⟨h, fun _ => Or.inr List.not_mem_nil, ?_⟩
  rintro ⟨before, after, heq, -⟩
  cases before <;> cases heq

/-- An `Err` is never wrong. -/
theorem heeds_err (e : IoError) (reports : List (Except Errno Unit)) :
    Heeds (.ok (.error e)) reports :=
  ⟨by simp, by simp, fun _ => ⟨e, rfl⟩⟩

theorem heeds_ok (reports : List (Except Errno Unit)) :
    Heeds (.ok (.ok ())) (.ok () :: reports) :=
  ⟨by simp, fun _ => Or.inl (List.mem_cons_self ..),
    fun h => absurd h (not_noSpaceFirst_cons_ok reports)⟩

/-- `Ok` is wrong after `ENOSPC` as the first report. -/
theorem not_heeds_ok (reports : List (Except Errno Unit)) :
    ¬ Heeds (.ok (.ok ())) (.error ENOSPC :: reports) := by
  intro h
  obtain ⟨e, he⟩ := h.err ⟨[], reports, rfl, List.not_mem_nil⟩
  cases he

/-! ## The calls -/

variable {out : AllocateOutcome} {p : Preallocation} {ps : List Preallocation} {errno : Nat}
  {e : Errno}

theorem tryPreallocations_ok (h : out.report p = .ok ()) :
    tryPreallocations out (p :: ps) errno = .ok (.ok ()) := by
  simp only [tryPreallocations, h]
  rfl

theorem tryPreallocations_zero (h : out.report p = .error e) (herrno : p.errnoAfter errno e = 0) :
    tryPreallocations out (p :: ps) errno = .error .errno := by
  simp only [tryPreallocations, h, herrno, handleEnospc, if_true]
  rfl

theorem tryPreallocations_noSpace (h : out.report p = .error e)
    (herrno : p.errnoAfter errno e = ENOSPC.code) :
    tryPreallocations out (p :: ps) errno = .ok (.error (.os ENOSPC.code)) := by
  simp only [tryPreallocations, h, herrno, handleEnospc, if_neg ENOSPC.nonzero, if_true]
  rfl

theorem tryPreallocations_next (h : out.report p = .error e) (hzero : p.errnoAfter errno e ≠ 0)
    (hnoSpace : p.errnoAfter errno e ≠ ENOSPC.code) :
    tryPreallocations out (p :: ps) errno = tryPreallocations out ps (p.errnoAfter errno e) := by
  simp only [tryPreallocations, h, handleEnospc, if_neg hzero, if_neg hnoSpace]
  rfl

/-- A call that sets `errno` is judged by its own error. -/
theorem heeds_sets (h : ∀ errno e, p.errnoAfter errno e = e.code) :
    Heeds (tryPreallocations out (p :: ps) errno) ((p :: ps).map out.report) ↔
      ∀ e, out.report p = .error e → e ≠ ENOSPC →
        Heeds (tryPreallocations out ps e.code) (ps.map out.report) := by
  rw [List.map_cons]
  cases hp : out.report p with
  | ok u =>
      rw [tryPreallocations_ok hp]
      exact ⟨fun _ _ he => (by cases he), fun _ => heeds_ok _⟩
  | error e =>
      have herrno := h errno e
      by_cases he : e = ENOSPC
      · rw [tryPreallocations_noSpace hp (herrno.trans (congrArg Errno.code he))]
        refine ⟨fun _ e' heq hne => ?_, fun _ => heeds_err ..⟩
        obtain rfl := Except.error.inj heq
        exact absurd he hne
      · have hcode : e.code ≠ ENOSPC.code := by
          obtain ⟨code, nonzero⟩ := e
          rintro rfl
          exact he rfl
        rw [tryPreallocations_next hp (herrno ▸ e.nonzero) (herrno ▸ hcode), herrno,
          heeds_cons_error he]
        refine ⟨fun hrest e' heq _ => ?_, fun hall => hall e rfl he⟩
        obtain rfl := Except.error.inj heq
        exact hrest

/-- `posix_fallocate` is judged by what it finds in `errno`. -/
theorem heeds_posixFallocate :
    Heeds (tryPreallocations out [.posixFallocate] errno) [out.posixFallocate] ↔
      ∀ e, out.posixFallocate = .error e → errno ≠ 0 ∧ (e = ENOSPC → errno = ENOSPC.code) := by
  have hreport : out.report .posixFallocate = out.posixFallocate := rfl
  cases hp : out.posixFallocate with
  | ok u =>
      rw [tryPreallocations_ok (hreport.trans hp)]
      exact ⟨fun _ _ he => (by cases he), fun _ => heeds_ok _⟩
  | error e =>
      have hfailed := hreport.trans hp
      have herrno : Preallocation.posixFallocate.errnoAfter errno e = errno := rfl
      by_cases hzero : errno = 0
      · rw [tryPreallocations_zero hfailed (herrno.trans hzero)]
        exact ⟨fun h => absurd rfl h.panics, fun h => absurd hzero (h e rfl).1⟩
      by_cases hnoSpace : errno = ENOSPC.code
      · rw [tryPreallocations_noSpace hfailed (herrno.trans hnoSpace)]
        exact ⟨fun _ _ _ => ⟨hzero, fun _ => hnoSpace⟩, fun _ => heeds_err ..⟩
      rw [tryPreallocations_next hfailed hzero hnoSpace,
        show tryPreallocations out [] (Preallocation.posixFallocate.errnoAfter errno e) =
          .ok (.ok ()) from rfl]
      by_cases he : e = ENOSPC
      · rw [he]
        exact ⟨fun h => absurd h (not_heeds_ok []), fun h => absurd ((h ENOSPC rfl).2 rfl) hnoSpace⟩
      · refine ⟨fun _ e' heq => ⟨hzero, fun he' => ?_⟩, fun _ => (heeds_cons_error he _ _).mpr ?_⟩
        · obtain rfl := Except.error.inj heq
          exact absurd he' he
        · exact heeds_nil (by simp)

/-! ## The verdict of `allocate_file` -/

/-- `errno` when `posix_fallocate` is called, if it is. -/
def errnoAtPosixFallocate (errno : Nat) (out : AllocateOutcome) : UnixTarget → Option Nat
  | .linux =>
      match out.setLen, out.fallocate with
      | .ok (), .error e => if e = ENOSPC then none else some e.code
      | _, _ => none
  | .freebsd | .dragonfly =>
      match out.setLen with
      | .ok () => some errno
      | .error _ => none
  | .macos | .other => none

/-- When `posix_fallocate` fails, it finds an `errno` that is not 0, and is
`ENOSPC` if that is its error. -/
def NotMisled (target : UnixTarget) (errno : Nat) (out : AllocateOutcome) : Prop :=
  ∀ found ∈ errnoAtPosixFallocate errno out target, ∀ e, out.posixFallocate = .error e →
    found ≠ 0 ∧ (e = ENOSPC → found = ENOSPC.code)

/-- The calls compiled for the target, as far as `set_len` lets them be made. -/
def AllocateOutcome.reports (out : AllocateOutcome) (target : UnixTarget) :
    List (Except Errno Unit) :=
  match out.setLen with
  | .error _ => []
  | .ok () => target.preallocations.map out.report

theorem allocate_file_heeds (target : UnixTarget) (errno : Nat) (out : AllocateOutcome)
    {size : UInt64} (hsize : size.toNat < 2 ^ 63) :
    Heeds (allocateFile target errno out size) (out.reports target) ↔
      NotMisled target errno out := by
  unfold allocateFile AllocateOutcome.reports NotMisled
  cases hlen : out.setLen with
  | error e =>
      refine ⟨fun _ found hfound => ?_, fun _ => heeds_err e []⟩
      cases target <;> simp [errnoAtPosixFallocate, hlen] at hfound
  | ok u =>
      dsimp only
      rw [if_neg (Nat.not_le.mpr hsize)]
      -- `posix_fallocate` is the last call wherever it is compiled
      have hlast : ∀ found, Heeds (tryPreallocations out [.posixFallocate] found)
          ([Preallocation.posixFallocate].map out.report) ↔ ∀ e, out.posixFallocate = .error e →
            found ≠ 0 ∧ (e = ENOSPC → found = ENOSPC.code) := fun _ => heeds_posixFallocate
      cases target with
      | linux =>
          unfold UnixTarget.preallocations
          rw [heeds_sets fun _ _ => rfl, show out.report .fallocate = out.fallocate from rfl]
          simp only [hlast, errnoAtPosixFallocate, hlen]
          cases hfallocate : out.fallocate with
          | ok u => simp
          | error e =>
              by_cases he : e = ENOSPC
              · simp [he]
              · simp [he]
      | macos =>
          unfold UnixTarget.preallocations
          rw [heeds_sets fun _ _ => rfl]
          refine ⟨fun _ found hfound => (by cases hfound), fun _ e _ _ => heeds_nil ?_⟩
          simp [tryPreallocations, pure, Except.pure]
      | freebsd | dragonfly =>
          unfold UnixTarget.preallocations
          rw [hlast]
          simp only [errnoAtPosixFallocate, hlen, Option.mem_some_iff, forall_eq']
      | other =>
          refine ⟨fun _ found hfound => (by cases hfound), fun _ => heeds_nil ?_⟩
          simp [UnixTarget.preallocations, tryPreallocations, pure, Except.pure]

/-- `fallocate` is not supported and `posix_fallocate` finds no space. -/
def AllocateOutcome.noSpace : AllocateOutcome where
  setLen := .ok ()
  fallocate := .error ⟨95, by decide⟩
  fcntl := .ok ()
  posixFallocate := .error ENOSPC

/-- On Linux the lack of space is hidden, elsewhere the thread panics if
nothing has set `errno`. -/
theorem allocate_file_hides :
    ¬ Heeds (allocateFile .linux 0 .noSpace 4096) (AllocateOutcome.noSpace.reports .linux) ∧
      allocateFile .linux 0 .noSpace 4096 = .ok (.ok ()) ∧
      allocateFile .freebsd 0 .noSpace 4096 = .error .errno := by
  refine ⟨fun h => ?_, rfl, rfl⟩
  obtain ⟨e, he⟩ := h.err ⟨[.error ⟨95, by decide⟩], [], rfl, by simp⟩
  cases he

theorem allocate_file_heeds_linux :
    (4096 : UInt64).toNat < 2 ^ 63 ∧
      (Heeds (allocateFile .linux 0 ⟨.ok (), .error ENOSPC, .ok (), .ok ()⟩ 4096)
        (AllocateOutcome.reports ⟨.ok (), .error ENOSPC, .ok (), .ok ()⟩ .linux) ↔
        NotMisled .linux 0 ⟨.ok (), .error ENOSPC, .ok (), .ok ()⟩) :=
  ⟨by decide, allocate_file_heeds _ _ _ (by decide)⟩

end Audioipc

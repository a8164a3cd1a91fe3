import Audioipc.DeviceBarrier

/-!
# The barrier holds

Every step of the calls keeps the invariant of `DeviceBarrier`. A call has the
lock while it writes, so nothing is executed then; between its two writes to a
direction the callback and its argument belong to different calls, and nobody
sees that.

The history only grows (`step_history`), and what is executed is its head. So
what a call has replaced is not executed when it returns, or later
(`device_collection_barrier`).
-/

namespace Audioipc

namespace DeviceBarrier

variable {l l' : DeviceBarrier} {id : RegistrationId} {c : RegisteringCall}

/-! ## The steps of the calls -/

theorem setPhase_cases {phase : RegisterPhase} {id' : RegistrationId} {c' : RegisteringCall}
    (hc' : (l.setPhase id c phase).calls id' = some c') :
    (id' = id ∧ c' = { c with phase }) ∨ (id' ≠ id ∧ l.calls id' = some c') :=
  Slab.insert_cases hc'

theorem setPhase_keeps (hc : l.calls id = some c) (phase : RegisterPhase) {id' : RegistrationId}
    {c₁ : RegisteringCall} (hc₁ : l.calls id' = some c₁) :
    ∃ c', (l.setPhase id c phase).calls id' = some c' ∧ c'.devtype = c₁.devtype ∧
      c'.callback = c₁.callback ∧ c'.userPtr = c₁.userPtr := by
  simp only [setPhase]
  by_cases hid : id' = id
  · subst hid
    obtain rfl := Option.some.inj (hc.symm.trans hc₁)
    exact ⟨_, Function.update_self .., rfl, rfl, rfl⟩
  · exact ⟨c₁, by rw [Function.update_of_ne hid]; exact hc₁, rfl, rfl, rfl⟩

theorem setPhase_callback (hc : l.calls id = some c) (phase : RegisterPhase) {cb : Option Nat}
    {id' : RegistrationId} (h : ∃ c₁, l.calls id' = some c₁ ∧ cb = c₁.callback) :
    ∃ c', (l.setPhase id c phase).calls id' = some c' ∧ cb = c'.callback := by
  obtain ⟨c₁, hc₁, hcb⟩ := h
  obtain ⟨c', hc', -, hsame, -⟩ := setPhase_keeps hc phase hc₁
  exact ⟨c', hc', hcb.trans hsame.symm⟩

theorem setPhase_userPtr (hc : l.calls id = some c) (phase : RegisterPhase) {userPtr : Nat}
    {id' : RegistrationId} (h : ∃ c₁, l.calls id' = some c₁ ∧ userPtr = c₁.userPtr) :
    ∃ c', (l.setPhase id c phase).calls id' = some c' ∧ userPtr = c'.userPtr := by
  obtain ⟨c₁, hc₁, hptr⟩ := h
  obtain ⟨c', hc', -, -, hsame⟩ := setPhase_keeps hc phase hc₁
  exact ⟨c', hc', hptr.trans hsame.symm⟩

theorem CallsOk.lt (h : l.CallsOk) (hc : l.calls id = some c) : id < l.next := by
  by_contra hle
  rw [h.fresh id (Nat.le_of_not_lt hle)] at hc
  cases hc

/-- What one call has written, and the others have. -/
theorem CallsOk.history_split (h : l.CallsOk) (hc : l.calls id = some c) (d : Direction)
    (id' : RegistrationId) : id' ∈ l.history d ↔ (id' ≠ id ∧ id' ∈ l.history d) ∨
      (id' = id ∧ d ∈ c.devtype.directions ∧ d ∉ c.unwritten) := by
  by_cases hid : id' = id
  · subst hid
    have hiff := h.history d id'
    simp only [hc, Option.some.injEq, exists_eq_left'] at hiff
    simp only [ne_eq, not_true_eq_false, false_and, true_and, false_or]
    exact hiff
  · simp [hid]

/-- A call that has the lock is the only one between its writes. -/
theorem CallsOk.not_half (h : l.CallsOk) (hc : l.calls id = some c)
    (hholds : c.phase.holds = true) {d : Direction} (hnot : ∀ todo, c.phase ≠ .half d todo) :
    ∀ id' c' todo, l.calls id' = some c' → c'.phase ≠ .half d todo := by
  intro id' c' todo hc' hph
  have hlock := h.locked id c hc hholds
  have hlock' := h.locked id' c' hc' (by rw [hph]; rfl)
  obtain rfl := LockHolder.call.inj (Option.some.inj (hlock.symm.trans hlock'))
  obtain rfl := Option.some.inj (hc.symm.trans hc')
  exact hnot todo hph

theorem CallsOk.setPhase (h : l.CallsOk) (hc : l.calls id = some c) {phase : RegisterPhase}
    (hcalls : l'.calls = (l.setPhase id c phase).calls) (hnext : l'.next = l.next)
    (hself : phase.holds = true → l'.lock = some (.call id))
    (hothers : ∀ id' ≠ id, l.lock = some (.call id') → l'.lock = some (.call id'))
    (hsuffix : ({ c with phase } : RegisteringCall).unwritten <:+ c.devtype.directions)
    (hhalf : ∀ d todo, phase = .half d todo →
      d :: todo <:+ c.devtype.directions ∧ l'.cbBy d = some id)
    (hcbBy : ∀ d, ∀ id' ≠ id, l.lock = some (.call id') → l.cbBy d = some id' →
      l'.cbBy d = some id')
    (hhistory : ∀ d id', id' ∈ l'.history d ↔ (id' ≠ id ∧ id' ∈ l.history d) ∨
      (id' = id ∧ d ∈ c.devtype.directions ∧
        d ∉ ({ c with phase } : RegisteringCall).unwritten)) : l'.CallsOk := by
  have hcases : ∀ {id' c'}, l'.calls id' = some c' →
      (id' = id ∧ c' = { c with phase }) ∨ (id' ≠ id ∧ l.calls id' = some c') := by
    intro id' c' hc'
    rw [hcalls] at hc'
    exact setPhase_cases hc'
  refine ⟨fun id' hle => ?_, fun id' c' hc' hholds => ?_, fun id' c' hc' => ?_,
    fun id' c' d todo hc' hph => ?_, fun d id' => (hhistory d id').trans ⟨?_, ?_⟩⟩
  · rw [hnext] at hle
    have hne : id' ≠ id := Nat.ne_of_gt (Nat.lt_of_lt_of_le (h.lt hc) hle)
    rw [hcalls]
    simp only [DeviceBarrier.setPhase, Function.update_of_ne hne]
    exact h.fresh id' hle
  · rcases hcases hc' with ⟨rfl, rfl⟩ | ⟨hne, hc'⟩
    · exact hself hholds
    · exact hothers id' hne (h.locked id' c' hc' hholds)
  · rcases hcases hc' with ⟨rfl, rfl⟩ | ⟨-, hc'⟩
    · exact hsuffix
    · exact h.suffix id' c' hc'
  · rcases hcases hc' with ⟨rfl, rfl⟩ | ⟨hne, hc'⟩
    · exact hhalf d todo hph
    · obtain ⟨hsuffix', hby⟩ := h.half id' c' d todo hc' hph
      exact ⟨hsuffix', hcbBy d id' hne (h.locked id' c' hc' (by rw [hph]; rfl)) hby⟩
  · rintro (⟨hne, hin⟩ | ⟨rfl, hin, hout⟩)
    · obtain ⟨c', hc', hdir, hout⟩ := (h.history d id').mp hin
      refine ⟨c', ?_, hdir, hout⟩
      rw [hcalls]
      simp only [DeviceBarrier.setPhase, Function.update_of_ne hne]
      exact hc'
    · refine ⟨{ c with phase }, ?_, hin, hout⟩
      rw [hcalls]
      exact Function.update_self ..
  · rintro ⟨c', hc', hdir, hout⟩
    rcases hcases hc' with ⟨rfl, rfl⟩ | ⟨hne, hc'⟩
    · exact Or.inr ⟨rfl, hdir, hout⟩
    · exact Or.inl ⟨hne, (h.history d id').mpr ⟨c', hc', hdir, hout⟩⟩

theorem Inv.goOn (h : l.Inv) (hc : l.calls id = some c) {phase : RegisterPhase}
    {lock : Option LockHolder} (hunwritten : ({ c with phase } : RegisteringCall).unwritten =
      c.unwritten) (hfrom : ∀ d todo, c.phase ≠ .half d todo) (hto : ∀ d todo, phase ≠ .half d todo)
    (hself : phase.holds = true → lock = some (.call id))
    (hothers : ∀ holder, holder ≠ .call id → l.lock = some holder → lock = some holder) :
    ({ l.setPhase id c phase with lock } : DeviceBarrier).Inv := by
  refine ⟨h.calls.setPhase hc rfl rfl hself (fun id' hne => hothers _ (by simp [hne]))
    (hunwritten ▸ h.calls.suffix id c hc) (fun d todo hph => absurd hph (hto d todo))
    (fun _ _ _ _ hby => hby) (fun d id' => hunwritten.symm ▸ h.calls.history_split hc d id'),
    ⟨h.callbacks.nodup, h.callbacks.head, h.callbacks.null,
      fun d id' hby => setPhase_callback hc phase (h.callbacks.cb d id' hby),
      fun d id' hby => setPhase_userPtr hc phase (h.callbacks.userPtr d id' hby),
      fun d hnone => ?_⟩,
    ⟨fun hholds => hothers .server (by simp) (h.server.serving hholds), h.server.found,
      h.server.executing⟩⟩
  refine h.callbacks.paired d fun id' c' todo hc' hph => ?_
  by_cases hid : id' = id
  · subst hid
    obtain rfl := Option.some.inj (hc.symm.trans hc')
    exact hfrom d todo hph
  · exact hnone id' c' todo (by simp only [setPhase, Function.update_of_ne hid]; exact hc') hph

/-- While a call has the lock, nothing is executed. -/
theorem Inv.not_serving (h : l.Inv) (hlock : l.lock = some (.call id)) :
    l.server.holds = false := by
  cases hholds : l.server.holds with
  | false => rfl
  | true =>
      rw [h.server.serving hholds] at hlock
      cases hlock

theorem serverOk_of_not_holds (hholds : l.server.holds = false) : l.ServerOk := by
  refine ⟨fun hs => ?_, fun d callback cbBy todo heq => ?_, fun d inv todo heq => ?_⟩
  · rw [hholds] at hs
    cases hs
  · rw [heq] at hholds
    cases hholds
  · rw [heq] at hholds
    cases hholds

theorem CallsOk.fresh_direction (h : l.CallsOk) (hc : l.calls id = some c) {d : Direction}
    {todo : List Direction} (hph : c.phase = .locked (d :: todo)) :
    c.unwritten = d :: todo ∧ id ∉ l.history d := by
  have hunwritten : c.unwritten = d :: todo := by unfold RegisteringCall.unwritten; rw [hph]
  refine ⟨hunwritten, fun hin => ?_⟩
  obtain ⟨c', hc', -, hout⟩ := (h.history d id).mp hin
  obtain rfl := Option.some.inj (hc.symm.trans hc')
  exact hout (hunwritten ▸ List.mem_cons_self ..)

theorem writeCb_calls (h : l.CallsOk) (hc : l.calls id = some c) {d : Direction}
    {todo : List Direction} (hph : c.phase = .locked (d :: todo)) :
    (l.writeCb id c d todo).CallsOk := by
  have hlock := h.locked id c hc (by rw [hph]; rfl)
  obtain ⟨hunwritten, hfresh⟩ := h.fresh_direction hc hph
  have hsuffix : d :: todo <:+ c.devtype.directions := hunwritten ▸ h.suffix id c hc
  have hnodup := c.devtype.nodup_directions.sublist hsuffix.sublist
  refine h.setPhase hc rfl rfl (fun _ => hlock) (fun _ _ hothers => hothers)
    ((List.suffix_cons d todo).trans hsuffix) ?_ ?_ fun d' id' => ?_
  · rintro d' todo' ⟨⟩
    exact ⟨hsuffix, Function.update_self ..⟩
  · intro d' id' hne hother
    rw [hlock] at hother
    exact absurd (LockHolder.call.inj (Option.some.inj hother)).symm hne
  · show id' ∈ Function.update l.history d (id :: l.history d) d' ↔ _
    by_cases hd : d' = d
    · subst hd
      rw [Function.update_self, List.mem_cons]
      have hdir := hsuffix.subset (List.mem_cons_self ..)
      have hout : d' ∉ todo := (List.nodup_cons.mp hnodup).1
      constructor
      · rintro (rfl | hin)
        · exact Or.inr ⟨rfl, hdir, hout⟩
        · exact Or.inl ⟨fun hid => hfresh (hid ▸ hin), hin⟩
      · rintro (⟨-, hin⟩ | ⟨rfl, -, -⟩)
        · exact Or.inr hin
        · exact Or.inl rfl
    · rw [Function.update_of_ne hd]
      have hsplit := h.history_split hc d' id'
      rw [hunwritten, List.mem_cons, or_iff_right hd] at hsplit
      exact hsplit

theorem writeCb_callbacks (h : l.Inv) (hc : l.calls id = some c) {d : Direction}
    {todo : List Direction} (hph : c.phase = .locked (d :: todo)) :
    (l.writeCb id c d todo).CallbacksOk := by
  have hfresh := (h.calls.fresh_direction hc hph).2
  refine ⟨fun d' => ?_, fun d' => ?_, fun d' hby => ?_, fun d' id' hby => ?_,
    fun d' id' hby => ?_, fun d' hnone => ?_⟩
  · show (Function.update l.history d (id :: l.history d) d').Nodup
    by_cases hd : d' = d
    · subst hd
      rw [Function.update_self]
      exact List.nodup_cons.mpr ⟨hfresh, h.callbacks.nodup d'⟩
    · rw [Function.update_of_ne hd]
      exact h.callbacks.nodup d'
  · show Function.update l.cbBy d (some id) d' =
      (Function.update l.history d (id :: l.history d) d').head?
    by_cases hd : d' = d
    · subst hd
      rw [Function.update_self, Function.update_self]
      rfl
    · rw [Function.update_of_ne hd, Function.update_of_ne hd]
      exact h.callbacks.head d'
  · have hby : Function.update l.cbBy d (some id) d' = none := hby
    show (l.callbacks.setCb c.callback d).cb d' = none
    have hd : d' ≠ d := by
      rintro rfl
      rw [Function.update_self] at hby
      cases hby
    rw [Function.update_of_ne hd] at hby
    rw [DeviceCollectionCallbacks.cb_setCb, if_neg hd]
    exact h.callbacks.null d' hby
  · have hby : Function.update l.cbBy d (some id) d' = some id' := hby
    show ∃ c', (l.setPhase id c (.half d todo)).calls id' = some c' ∧
      (l.callbacks.setCb c.callback d).cb d' = c'.callback
    rw [DeviceCollectionCallbacks.cb_setCb]
    by_cases hd : d' = d
    · subst hd
      rw [Function.update_self] at hby
      obtain rfl := Option.some.inj hby
      exact ⟨_, Function.update_self .., if_pos rfl⟩
    · rw [Function.update_of_ne hd] at hby
      rw [if_neg hd]
      exact setPhase_callback hc _ (h.callbacks.cb d' id' hby)
  · show ∃ c', (l.setPhase id c (.half d todo)).calls id' = some c' ∧
      (l.callbacks.setCb c.callback d).userPtr d' = c'.userPtr
    rw [DeviceCollectionCallbacks.userPtr_setCb]
    exact setPhase_userPtr hc _ (h.callbacks.userPtr d' id' hby)
  · have hd : d' ≠ d := by
      rintro rfl
      exact hnone id { c with phase := .half d' todo } todo (Function.update_self ..) rfl
    show l.userPtrBy d' = Function.update l.cbBy d (some id) d'
    rw [Function.update_of_ne hd]
    exact h.callbacks.paired d' (h.calls.not_half hc (by rw [hph]; rfl) (by simp [hph]))

theorem writeCb_inv (h : l.Inv) (hc : l.calls id = some c) {d : Direction} {todo : List Direction}
    (hph : c.phase = .locked (d :: todo)) : (l.writeCb id c d todo).Inv where
  calls := writeCb_calls h.calls hc hph
  callbacks := writeCb_callbacks h hc hph
  server := serverOk_of_not_holds
    (h.not_serving (h.calls.locked id c hc (by rw [hph]; rfl)))

theorem writeUserPtr_inv (h : l.Inv) (hc : l.calls id = some c) {d : Direction}
    {todo : List Direction} (hph : c.phase = .half d todo) :
    (l.writeUserPtr id c d todo).Inv := by
  have hlock := h.calls.locked id c hc (by rw [hph]; rfl)
  obtain ⟨-, hhalf⟩ := h.calls.half id c d todo hc hph
  have hunwritten : c.unwritten = todo := by unfold RegisteringCall.unwritten; rw [hph]
  refine ⟨h.calls.setPhase hc rfl rfl (fun _ => hlock) (fun _ _ hothers => hothers)
    (hunwritten ▸ h.calls.suffix id c hc) (fun _ _ heq => by cases heq) (fun _ _ _ _ hby => hby)
    (fun d' id' => hunwritten ▸ h.calls.history_split hc d' id'),
    ⟨h.callbacks.nodup, h.callbacks.head, fun d' hby => ?_, fun d' id' hby => ?_,
      fun d' id' hby => ?_, fun d' hnone => ?_⟩, serverOk_of_not_holds (h.not_serving hlock)⟩
  · show (l.callbacks.setUserPtr c.userPtr d).cb d' = none
    rw [DeviceCollectionCallbacks.cb_setUserPtr]
    exact h.callbacks.null d' hby
  · show ∃ c', (l.setPhase id c (.locked todo)).calls id' = some c' ∧
      (l.callbacks.setUserPtr c.userPtr d).cb d' = c'.callback
    rw [DeviceCollectionCallbacks.cb_setUserPtr]
    exact setPhase_callback hc _ (h.callbacks.cb d' id' hby)
  · have hby : Function.update l.userPtrBy d (some id) d' = some id' := hby
    show ∃ c', (l.setPhase id c (.locked todo)).calls id' = some c' ∧
      (l.callbacks.setUserPtr c.userPtr d).userPtr d' = c'.userPtr
    rw [DeviceCollectionCallbacks.userPtr_setUserPtr]
    by_cases hd : d' = d
    · subst hd
      rw [Function.update_self] at hby
      obtain rfl := Option.some.inj hby
      exact ⟨_, Function.update_self .., if_pos rfl⟩
    · rw [Function.update_of_ne hd] at hby
      rw [if_neg hd]
      exact setPhase_userPtr hc _ (h.callbacks.userPtr d' id' hby)
  · show Function.update l.userPtrBy d (some id) d' = l.cbBy d'
    by_cases hd : d' = d
    · subst hd
      rw [Function.update_self, hhalf]
    · rw [Function.update_of_ne hd]
      refine h.callbacks.paired d' (h.calls.not_half hc (by rw [hph]; rfl) fun todo' hph' => ?_)
      rw [hph] at hph'
      exact hd (RegisterPhase.half.inj hph').1.symm

theorem call_inv (h : l.Inv) (devtype : DeviceType) (callback : Option Nat) (userPtr : Nat) :
    DeviceBarrier.Inv { l with
      calls := Function.update l.calls l.next (some ⟨devtype, callback, userPtr, .setup⟩)
      next := l.next + 1 } := by
  have hnone : l.calls l.next = none := h.calls.fresh _ (Nat.le_refl _)
  have hcases : ∀ {id c}, Function.update l.calls l.next
      (some ⟨devtype, callback, userPtr, .setup⟩) id = some c →
      c = ⟨devtype, callback, userPtr, .setup⟩ ∨ l.calls id = some c := by
    intro id c hc
    by_cases hid : id = l.next
    · rw [hid, Function.update_self] at hc
      exact Or.inl (Option.some.inj hc).symm
    · rw [Function.update_of_ne hid] at hc
      exact Or.inr hc
  have hkeeps : ∀ {id c}, l.calls id = some c →
      Function.update l.calls l.next (some ⟨devtype, callback, userPtr, .setup⟩) id = some c := by
    intro id c hc
    have hid : id ≠ l.next := by
      rintro rfl
      rw [hnone] at hc
      cases hc
    rw [Function.update_of_ne hid]
    exact hc
  refine ⟨⟨fun id hle => ?_, fun id c hc hholds => ?_, fun id c hc => ?_,
    fun id c d todo hc hph => ?_, fun d id => (h.calls.history d id).trans ⟨?_, ?_⟩⟩,
    ⟨h.callbacks.nodup, h.callbacks.head, h.callbacks.null, fun d id hby => ?_,
      fun d id hby => ?_, fun d hhalf => h.callbacks.paired d fun id c todo hc =>
        hhalf id c todo (hkeeps hc)⟩,
    ⟨h.server.serving, h.server.found, h.server.executing⟩⟩
  · have hlt : l.next < id := hle
    show Function.update l.calls l.next _ id = none
    rw [Function.update_of_ne (Nat.ne_of_gt hlt)]
    exact h.calls.fresh id (Nat.le_of_lt hlt)
  · rcases hcases hc with rfl | hc
    · cases hholds
    · exact h.calls.locked id c hc hholds
  · rcases hcases hc with rfl | hc
    · exact List.suffix_refl _
    · exact h.calls.suffix id c hc
  · rcases hcases hc with rfl | hc
    · cases hph
    · exact h.calls.half id c d todo hc hph
  · rintro ⟨c, hc, hdir, hout⟩
    exact ⟨c, hkeeps hc, hdir, hout⟩
  · rintro ⟨c, hc, hdir, hout⟩
    rcases hcases hc with rfl | hc
    · exact absurd hdir hout
    · exact ⟨c, hc, hdir, hout⟩
  · obtain ⟨c, hc, hcb⟩ := h.callbacks.cb d id hby
    exact ⟨c, hkeeps hc, hcb⟩
  · obtain ⟨c, hc, hptr⟩ := h.callbacks.userPtr d id hby
    exact ⟨c, hkeeps hc, hptr⟩

theorem step_inv (h : l.Inv) {a : BarrierAction} (hs : l.step a = some l') : l'.Inv := by
  cases step_cases hs with
  | @call devtype callback userPtr => exact call_inv h devtype callback userPtr
  | @setup id c r phase hc hph hphase =>
      refine h.goOn hc ?_ (by simp [hph]) ?_ ?_ (fun _ _ hlock => hlock)
      · unfold RegisteringCall.unwritten
        rcases hphase with rfl | ⟨e, rfl⟩ <;> rw [hph]
      · rcases hphase with rfl | ⟨e, rfl⟩ <;> simp
      · rcases hphase with rfl | ⟨e, rfl⟩ <;> intro hholds <;> cases hholds
  | @acquire id c hc hph hlock =>
      refine h.goOn hc ?_ (by simp [hph]) (by simp) (fun _ => rfl) fun holder _ hholder => ?_
      · unfold RegisteringCall.unwritten
        rw [hph]
      · rw [hlock] at hholder
        cases hholder
  | writeCb hc hph => exact writeCb_inv h hc hph
  | writeUserPtr hc hph => exact writeUserPtr_inv h hc hph
  | @release id c hc hph =>
      refine h.goOn hc ?_ (by simp [hph]) (by simp) (fun hholds => (by cases hholds))
        fun holder hne hholder => ?_
      · unfold RegisteringCall.unwritten
        rw [hph]
      · rw [h.calls.locked id c hc (by rw [hph]; rfl)] at hholder
        exact absurd (Option.some.inj hholder).symm hne
  | @respond id c r hc hph =>
      refine h.goOn hc ?_ (by simp [hph]) (by simp) (fun hholds => (by cases hholds))
        fun _ _ hlock => hlock
      unfold RegisteringCall.unwritten
      rw [hph]
  | deviceChange hserver =>
      exact h.serve h.calls.locked ⟨fun hholds => (by cases hholds),
        fun _ _ _ _ heq => (by cases heq), fun _ _ _ heq => by cases heq⟩
  | lock hserver hlock =>
      refine h.serve (fun id c hc hholds => ?_) ⟨fun _ => rfl, fun _ _ _ _ heq => (by cases heq),
        fun _ _ _ heq => by cases heq⟩
      have hcall := h.calls.locked id c hc hholds
      rw [hlock] at hcall
      cases hcall
  | check hserver => exact check_inv h hserver
  | invoke hserver => exact invoke_inv h hserver
  | finish hserver =>
      exact h.serveOn (by rw [hserver]; rfl) (fun _ _ _ _ heq => by cases heq)
        (fun _ _ _ heq => by cases heq)
  | unlock hserver =>
      refine h.serve (fun id c hc hholds => ?_) (serverOk_of_not_holds rfl)
      have hcall := h.calls.locked id c hc hholds
      rw [h.server.serving (by rw [hserver]; rfl)] at hcall
      cases hcall

/-! ## The barrier -/

theorem step_history {a : BarrierAction} (hs : l.step a = some l') (d : Direction) :
    l.history d <:+ l'.history d := by
  cases step_cases hs with
  | call | setup | acquire | writeUserPtr | release | respond | deviceChange | lock | invoke
  | finish | unlock => exact List.suffix_refl _
  | check =>
      unfold check
      split <;> exact List.suffix_refl _
  | @writeCb id c d' todo =>
      show l.history d <:+ Function.update l.history d' (id :: l.history d') d
      by_cases hd : d = d'
      · subst hd
        rw [Function.update_self]
        exact List.suffix_cons ..
      · simp only [Function.update_of_ne hd, List.suffix_refl]

/-- What was written stays in the history. -/
theorem runs_history {as : List BarrierAction} (hrun : Lts.runs step l as = some l')
    (d : Direction) : l.history d <:+ l'.history d :=
  Lts.runs_invariant (I := fun l' => l.history d <:+ l'.history d)
    (fun _ _ _ hle hs => hle.trans (step_history hs d)) (List.suffix_refl _) hrun

/-- What the users of callbacks rely on: a callback runs with the argument of
its own registration, and once a call has returned, what it has replaced does
not run, now or later. -/
structure Guards (l : DeviceBarrier) : Prop where
  paired : ∀ d inv todo, l.server = .executing d inv todo → ∃ id c, inv.cbBy = some id ∧
    inv.userPtrBy = some id ∧ l.calls id = some c ∧ d ∈ c.devtype.directions ∧
    c.callback = some inv.callback ∧ c.userPtr = inv.userPtr
  replaced : ∀ id c r, l.calls id = some c → c.phase = .returned r →
    ∀ d ∈ c.devtype.directions, id ∈ l.history d ∧
      ∀ j, History.Replaced (l.history d) id j → ∀ bs l', Lts.runs step l bs = some l' →
        ∀ inv todo, l'.server = .executing d inv todo → inv.cbBy ≠ some j

theorem Inv.guards (h : l.Inv) : l.Guards := by
  refine ⟨fun d inv todo hserver => ?_, fun id c r hc hph d hd =>
    ⟨(h.calls.history d id).mpr ⟨c, hc, hd, ?_⟩, fun j hj bs l' hrun inv todo hserver => ?_⟩⟩
  · obtain ⟨hcb, hptr, hcbBy, hptrBy⟩ := h.server.executing d inv todo hserver
    have hlock := h.server.serving (by rw [hserver]; rfl)
    have hpaired := h.paired (fun id heq => by rw [hlock] at heq; cases heq) d
    cases hby : l.cbBy d with
    | none =>
        rw [h.callbacks.null d hby] at hcb
        cases hcb
    | some id =>
        obtain ⟨c, hc, hcallback⟩ := h.callbacks.cb d id hby
        obtain ⟨c', hc', huserPtr⟩ := h.callbacks.userPtr d id (hpaired.trans hby)
        obtain rfl := Option.some.inj (hc.symm.trans hc')
        have hin : id ∈ l.history d :=
          List.mem_of_mem_head? (by rw [← h.callbacks.head d, hby]; rfl)
        obtain ⟨c', hc', hdir, -⟩ := (h.calls.history d id).mp hin
        obtain rfl := Option.some.inj (hc.symm.trans hc')
        exact ⟨id, c, hcbBy.symm.trans hby, hptrBy.symm.trans (hpaired.trans hby), hc, hdir,
          hcallback.symm.trans hcb, huserPtr.symm.trans hptr⟩
  · unfold RegisteringCall.unwritten
    rw [hph]
    exact List.not_mem_nil
  · have h' : l'.Inv := Lts.runs_invariant (fun _ _ _ h hs => step_inv h hs) h hrun
    obtain ⟨-, -, hcbBy, -⟩ := h'.server.executing d inv todo hserver
    rw [← hcbBy, h'.callbacks.head d]
    exact (hj.mono (runs_history hrun d)).ne_head (h'.callbacks.nodup d)

theorem device_collection_barrier {as : List BarrierAction}
    (hrun : Lts.runs step new as = some l) : l.Guards :=
  Inv.guards (Lts.runs_invariant (fun _ _ _ h hs => step_inv h hs) inv_new hrun)

/-- A callback runs, and is unregistered after it has returned. -/
def unregistering : List BarrierAction :=
  [.call ⟨true, false⟩ (some 10) 20, .setup 0 (.ok ()), .acquire 0, .writeCb 0, .writeUserPtr 0,
    .release 0, .respond 0 (.ok ()), .deviceChange 1, .lock, .check, .invoke,
    .call ⟨true, true⟩ none 0, .setup 1 (.ok ()), .finish, .unlock, .acquire 1, .writeCb 1,
    .writeUserPtr 1, .writeCb 1, .writeUserPtr 1, .release 1, .respond 1 (.ok ())]

theorem device_collection_barrier_run : ∃ l, Lts.runs step new unregistering = some l ∧
    History.Replaced (l.history .input) 1 0 ∧ l.Guards :=
  ⟨_, rfl, ⟨[], [0], rfl, List.mem_cons_self ..⟩,
    device_collection_barrier (rfl : Lts.runs step new unregistering = _)⟩

end DeviceBarrier

end Audioipc

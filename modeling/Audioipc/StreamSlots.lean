import Audioipc.StreamRequests

/-!
# The slots of the streams of a client

The server's processing a request is about the stream that has made it: the
slot that changes is that of the stream, since the stream had the request
waiting (`Head`) and a slot belongs to one stream (`Owns.unique`). A new slot
is at a vacant key, so it is not that of another stream either.
-/

namespace Audioipc

namespace StreamClients

variable {s s' : StreamClients} {id id' call : CallId} {token : Nat}

/-! ## The server processes a request -/

/-- The first of the requests of a stream, and the rest. -/
inductive Head (s : StreamClients) (id : CallId) : ServerMessage → List ServerMessage → Prop
  | create (params : StreamCreateParams) : Head s id (.streamCreate params) []
  | init (token : Nat) (howns : s.Owns id token false) : Head s id (.streamInit token) []
  | operation (token : Nat) (msg : ServerMessage) (rest : List ServerMessage)
      (howns : s.Owns id token true) (hmsg : msg.operates = some token)
      (hrest : (∀ m ∈ rest, m.operates = some token) ∨
        ∃ ms, rest = ms ++ [.streamDestroy token] ∧ ∀ m ∈ ms, m.operates = some token) :
      Head s id msg rest
  | destroy (token : Nat) (howns : s.Owns id token true) : Head s id (.streamDestroy token) []

theorem Queued.head {msg : ServerMessage} {rest : List ServerMessage}
    (h : s.Queued id (msg :: rest)) : Head s id msg rest := by
  generalize hms : msg :: rest = ms at h
  cases h with
  | nothing => cases hms
  | create params =>
      cases hms
      exact .create params
  | init token howns =>
      cases hms
      exact .init token howns
  | operations token _ howns hoperates =>
      subst hms
      exact .operation token msg rest howns (hoperates msg List.mem_cons_self)
        (Or.inl fun m hm => hoperates m (List.mem_cons_of_mem _ hm))
  | destroy token ms howns hoperates =>
      cases ms with
      | nil =>
          cases hms
          exact .destroy token howns
      | cons m ms =>
          cases hms
          exact .operation token msg _ howns (hoperates msg List.mem_cons_self)
            (Or.inr ⟨ms, rfl, fun m hm => hoperates m (List.mem_cons_of_mem _ hm)⟩)

theorem Head.of_create {params : StreamCreateParams} {rest : List ServerMessage}
    (h : Head s id (.streamCreate params) rest) : rest = [] := by
  cases h with
  | create => rfl
  | operation _ _ _ _ hmsg => cases hmsg

theorem Head.of_init {rest : List ServerMessage} (h : Head s id (.streamInit token) rest) :
    s.Owns id token false ∧ rest = [] := by
  cases h with
  | init _ howns => exact ⟨howns, rfl⟩
  | operation _ _ _ _ hmsg => cases hmsg

theorem Head.of_destroy {rest : List ServerMessage} (h : Head s id (.streamDestroy token) rest) :
    s.Owns id token true ∧ rest = [] := by
  cases h with
  | operation _ _ _ _ hmsg => cases hmsg
  | destroy _ howns => exact ⟨howns, rfl⟩

theorem Head.of_operates {msg : ServerMessage} {rest : List ServerMessage}
    (h : Head s id msg rest) (hmsg : msg.operates = some token) : s.Owns id token true := by
  cases h with
  | operation token' _ _ howns hmsg' =>
      obtain rfl : token' = token := Option.some.inj (hmsg'.symm.trans hmsg)
      exact howns
  | create | init | destroy => cases hmsg

/-- A request that does not open or close a stream leaves the slots alone. -/
theorem slots_kept {out : Outcome} {c c' : CubebServer} {msg : ServerMessage}
    {r : Item ClientMessage} (h : CubebServer.SlotEffect out c c' msg r)
    (hmsg : msg.ofStream = false ∨ msg.operates.isSome = true) : c'.slots = c.slots := by
  cases h with
  | kept hslots => exact hslots
  | created | initialized | removed | destroyed => rcases hmsg with h | h <;> cases h

/-- The server processes the next request. -/
structure Processed (s s' : StreamClients) (out : Outcome) (call : CallId)
    (m : Item ServerMessage) (r : Item ClientMessage) : Prop where
  vacant : s.server.streams out.key = none
  next : s.link.next = some (call, m)
  effect : CubebServer.SlotEffect out s.server s'.server m.body r
  pid : s'.server.remotePid = s.server.remotePid
  processed : s'.processed = s.processed ++ [(m, r)]
  rpc : s'.rpc = s.rpc
  maker : s'.maker = s.made s'.link
  owner : s'.owner = s.owner

section Processed

variable {out : Outcome} {m : Item ServerMessage} {r : Item ClientMessage}

theorem Processed.pending (h : Processed s s' out call m r) :
    s.pending = (call, m) :: s'.pending := by
  obtain ⟨hlt, heq⟩ := List.getElem?_eq_some_iff.mp h.next
  rw [StreamClients.pending, StreamClients.pending, h.processed, h.rpc, List.length_append,
    List.length_singleton, List.drop_eq_getElem_cons hlt, heq]

theorem Processed.requests (h : Processed s s' out call m r) (id : CallId) :
    s.requests id =
      if s.owner call = some id then m.body :: s'.requests id else s'.requests id := by
  simp only [StreamClients.requests, h.pending, h.owner]
  by_cases hid : s.owner call = some id <;> simp [hid]

theorem Processed.answered (h : Processed s s' out call m r) {call' : CallId}
    {r' : Item ClientMessage} (ha : s'.Answered call' r') :
    s.Answered call' r' ∨ (call' = call ∧ r' = r) := by
  obtain ⟨n, m', hn, hr⟩ := ha
  rw [h.rpc] at hn
  rw [h.processed] at hr
  by_cases hlt : n < s.processed.length
  · rw [List.getElem?_append_left hlt] at hr
    exact Or.inl ⟨n, m', hn, hr⟩
  · rw [List.getElem?_append_right (Nat.le_of_not_lt hlt), List.getElem?_singleton] at hr
    split at hr
    · rename_i hzero
      have hlast : n = s.processed.length :=
        Nat.le_antisymm (Nat.sub_eq_zero_iff_le.mp hzero) (Nat.le_of_not_lt hlt)
      rw [hlast] at hn
      cases hn.symm.trans h.next
      cases hr
      exact Or.inr ⟨rfl, rfl⟩
    · cases hr

theorem Processed.owns_kept (h : Processed s s' out call m r)
    (hslots : s'.server.slots = s.server.slots) {b : Bool} (howns : s.Owns id token b) :
    s'.Owns id token b := by
  simp only [CubebServer.slots, Prod.mk.injEq] at hslots
  obtain ⟨hstreams, hserial, -⟩ := hslots
  obtain ⟨slot, hslot, hmaker, hstream⟩ := howns
  have hsame : s'.maker = s.maker := h.maker.trans (if_pos hserial)
  exact ⟨slot, hstreams ▸ hslot, hsame ▸ hmaker, hstream⟩

theorem Processed.of_create (h : Processed s s' out call m r) {params : StreamCreateParams}
    (hm : m.body = .streamCreate params) {size : UInt64}
    (hr : ClientStream.streamCreated r = some (token, size)) : s'.Owns call token false := by
  have heffect := h.effect
  rw [hm] at heffect
  cases heffect with
  | kept _ hbody =>
      unfold ClientStream.streamCreated at hr
      split at hr
      · rename_i heq
        rw [heq] at hbody
        cases hbody
      · cases hr
  | created slot hcreated hserial hslots =>
      simp only [CubebServer.slots, Prod.mk.injEq] at hslots
      obtain ⟨hstreams, hserial', -⟩ := hslots
      cases hr
      have hgrown : s'.link.server.driver.handler.server.1.serial ≠ s.server.serial := by
        rw [hserial']
        exact Nat.succ_ne_self _
      refine ⟨slot, by rw [hstreams, Function.update_self], ?_, by rw [hcreated.stream]; rfl⟩
      rw [h.maker, made, if_neg hgrown, hserial, Function.update_self, h.next]
      rfl

theorem Processed.of_init (h : Processed s s' out call m r) (hm : m.body = .streamInit token)
    (howns : s.Owns id token false) (hr : ClientStream.streamInitialized r = some ()) :
    s'.Owns id token true := by
  have heffect := h.effect
  rw [hm] at heffect
  cases heffect with
  | kept _ hbody =>
      unfold ClientStream.streamInitialized at hr
      split at hr
      · rename_i heq
        rw [heq] at hbody
        cases hbody
      · cases hr
  | removed => cases hr
  | initialized hslot hstream hparams hpipe hslots =>
      simp only [CubebServer.slots, Prod.mk.injEq] at hslots
      obtain ⟨hstreams, hserial, -⟩ := hslots
      obtain ⟨slot, hslot', hmaker, -⟩ := howns
      cases hslot.symm.trans hslot'
      have hsame : s'.maker = s.maker := h.maker.trans (if_pos hserial)
      have hnew := congrFun hstreams token
      rw [Function.update_self] at hnew
      exact ⟨_, hnew, hsame ▸ hmaker, rfl⟩

variable [Bincode ServerMessage] [Bincode ClientMessage]

theorem Processed.request (h : Processed s s' out call m r) (hi : s.Inv) :
    ∃ c, s.rpc.calls call = some c ∧ c.request = m ∧ c.owns = false :=
  hi.accepted (List.mem_of_getElem? h.next)

theorem Processed.head (h : Processed s s' out call m r) (hi : s.Inv)
    (hid : s.owner call = some id) : Head s id m.body (s'.requests id) := by
  have hqueued := hi.queued id
  rw [h.requests id, if_pos hid] at hqueued
  exact hqueued.head

theorem Processed.owns_other (h : Processed s s' out call m r) (hi : s.Inv)
    (hid : s.owner call ≠ some id) {b : Bool} (howns : s.Owns id token b) :
    s'.Owns id token b := by
  -- the slot that changes belongs to the stream whose request it is
  have hne : ∀ {token'}, m.body = .streamInit token' ∨ m.body = .streamDestroy token' →
      token ≠ token' := by
    rintro token' hbody rfl
    cases ho : s.owner call with
    | none =>
        obtain ⟨c, hc, hrequest, -⟩ := h.request hi
        have hof := hi.others call c hc ho
        rw [hrequest] at hof
        rcases hbody with hbody | hbody <;> rw [hbody] at hof <;> cases hof
    | some id' =>
        have hhead := h.head hi ho
        have howns' : ∃ b', s.Owns id' token b' := by
          rcases hbody with hbody | hbody <;> rw [hbody] at hhead
          · exact ⟨_, hhead.of_init.1⟩
          · exact ⟨_, hhead.of_destroy.1⟩
        obtain ⟨b', howns'⟩ := howns'
        rw [(howns.unique howns').1] at hid
        exact hid ho
  have hkept : ∀ {slots' : Slab ServerStream} {n}, s'.server.slots = (slots', s.server.serial, n) →
      slots' token = s.server.streams token → s'.Owns id token b := by
    intro slots' n hslots hsame
    simp only [CubebServer.slots, Prod.mk.injEq] at hslots
    obtain ⟨hstreams, hserial, -⟩ := hslots
    obtain ⟨slot, hslot, hmaker, hstream⟩ := howns
    have hmaker' : s'.maker = s.maker := h.maker.trans (if_pos hserial)
    exact ⟨slot, by rw [hstreams, hsame, hslot], hmaker' ▸ hmaker, hstream⟩
  have heffect := h.effect
  generalize hbody : m.body = body at heffect
  cases heffect with
  | kept hslots => exact h.owns_kept hslots howns
  | initialized _ _ _ _ hslots => exact hkept hslots (Function.update_of_ne (hne (Or.inl hbody)) ..)
  | removed _ _ hslots => exact hkept hslots (Function.update_of_ne (hne (Or.inl hbody)) ..)
  | destroyed _ hslots => exact hkept hslots (Function.update_of_ne (hne (Or.inr hbody)) ..)
  | created slot' hcreated hserial hslots =>
      simp only [CubebServer.slots, Prod.mk.injEq] at hslots
      obtain ⟨hstreams, hserial', -⟩ := hslots
      obtain ⟨slot, hslot, hmaker, hstream⟩ := howns
      have hkey : token ≠ out.key := by
        rintro rfl
        rw [h.vacant] at hslot
        cases hslot
      have hold : slot.serial ≠ s.server.serial := Nat.ne_of_lt (hi.server.serial token slot hslot)
      have hgrown : s'.link.server.driver.handler.server.1.serial ≠ s.server.serial := by
        rw [hserial']
        exact Nat.succ_ne_self _
      refine ⟨slot, by rw [hstreams, Function.update_of_ne hkey, hslot], ?_, hstream⟩
      rw [h.maker, made, if_neg hgrown, Function.update_of_ne hold, hmaker]

theorem Processed.keeps (h : Processed s s' out call m r) (hi : s.Inv)
    (hid : s.owner call ≠ some id) : Keeps s s' id where
  owns _ _ := h.owns_other hi hid
  requests := by rw [h.requests id, if_neg hid]
  owner call' ho := by rw [h.owner]; exact ho
  calls call' c hc _ := ⟨c, by rw [h.rpc]; exact hc, rfl, fun howns => howns⟩
  answered call' r' ho ha := by
    rcases h.answered ha with ha | ⟨rfl, -⟩
    · exact ha
    · exact absurd ho hid

/-- The stream whose request it is finds what it relies on. -/
theorem Processed.own (h : Processed s s' out call m r) (hi : s.Inv)
    (hid : s.owner call = some id) : s'.Queued id (s'.requests id) ∧
      ∀ ph, s.streams id = some ph → s'.PhaseOk id ph := by
  have hhead := h.head hi hid
  have hrequests : s.requests id = m.body :: s'.requests id := by rw [h.requests id, if_pos hid]
  have hne : s.requests id ≠ [] := hrequests ▸ List.cons_ne_nil _ _
  have hoperates : ∀ {token}, (s.Owns id token true ∧
      ∀ msg ∈ s.requests id, msg.operates = some token) →
      s'.Owns id token true ∧ ∀ msg ∈ s'.requests id, msg.operates = some token := by
    rintro token ⟨howns, hms⟩
    rw [hrequests] at hms
    have hkept := slots_kept h.effect (Or.inr (by rw [hms _ List.mem_cons_self]; rfl))
    exact ⟨h.owns_kept hkept howns, fun msg hmsg => hms msg (List.mem_cons_of_mem _ hmsg)⟩
  have hcalls : ∀ {call' msg P P'}, (P → P') → s.Calls id call' msg P →
      s'.Calls id call' msg P' := by
    rintro call' msg P P' hP ⟨howner, c, hc, hmsg, hown⟩
    exact ⟨by rw [h.owner]; exact howner, c, by rw [h.rpc]; exact hc, hmsg, fun ho => hP (hown ho)⟩
  have hbody : ∀ {msg P}, s.Calls id call msg P → m.body = msg := by
    rintro msg P ⟨-, c, hc, hmsg, -⟩
    obtain ⟨c', hc', hrequest, -⟩ := h.request hi
    cases hc.symm.trans hc'
    rw [← hrequest, hmsg]
  refine ⟨?_, fun ph hph => ?_⟩
  · generalize s'.requests id = rest at hhead
    generalize hmsg : m.body = msg at hhead
    cases hhead with
    | create | init | destroy => exact .nothing
    | operation token _ _ howns hoperate hrest =>
        have hkept := slots_kept h.effect (Or.inr (by rw [hmsg, hoperate]; rfl))
        rcases hrest with hms | ⟨ms, rfl, hms⟩
        · exact .operations token rest (h.owns_kept hkept howns) hms
        · exact .destroy token ms (h.owns_kept hkept howns) hms
  · have hok := hi.phases id ph hph
    cases ph with
    | creating =>
        obtain ⟨⟨params, hcall⟩, hanswered⟩ := hok
        refine ⟨⟨params, hcalls (absurd · hne) hcall⟩, fun r' token size hr hcreated => ?_⟩
        rcases h.answered hr with hold | ⟨rfl, rfl⟩
        · exact absurd (hanswered r' token size hold hcreated).2 hne
        · have hm := hbody hcall
          rw [hm] at hhead
          exact ⟨h.of_create hm hcreated, hhead.of_create⟩
    | initializing token call' =>
        obtain ⟨hcall, hanswered⟩ := hok
        refine ⟨hcalls (fun hP => absurd hP.2 hne) hcall, fun r' hr hinit => ?_⟩
        rcases h.answered hr with hold | ⟨rfl, rfl⟩
        · exact absurd (hanswered r' hold hinit).2 hne
        · have hm := hbody hcall
          rw [hm] at hhead
          obtain ⟨howns, hrest⟩ := hhead.of_init
          exact ⟨h.of_init hm howns hinit, hrest⟩
    | created token | initialized token => exact absurd hok.2 hne
    | alive token calls => exact hoperates hok
    | destroying token call' => exact hcalls hoperates hok
    | failed | dropped => exact trivial

theorem Processed.inv (h : Processed s s' out call m r) (hi : s.Inv) (hrpc : RpcInv s'.link)
    (hstreams : s'.streams = s.streams) : s'.Inv := by
  have hall : ∀ id, s'.Queued id (s'.requests id) ∧
      ∀ ph, s.streams id = some ph → s'.PhaseOk id ph := by
    intro id
    by_cases hid : s.owner call = some id
    · exact h.own hi hid
    · have hkeeps := h.keeps hi hid
      exact ⟨hkeeps.queued (hi.queued id), fun ph hph => hkeeps.phaseOk (hi.phases id ph hph)⟩
  refine ⟨hrpc, hi.server.effect h.effect h.pid, fun call' c id hc ho howns => ?_,
    fun call' id ho => ?_, fun call' c hc ho => ?_, fun id => (hall id).1,
    fun id ph hph => (hall id).2 ph (hstreams ▸ hph)⟩
  · rw [h.rpc] at hc
    rw [h.owner] at ho
    rw [hstreams]
    exact hi.calls call' c id hc ho howns
  · rw [h.owner] at ho
    rw [h.rpc, hstreams]
    exact hi.owner call' id ho
  · rw [h.rpc] at hc
    rw [h.owner] at ho
    exact hi.others call' c hc ho

end Processed

end StreamClients

end Audioipc

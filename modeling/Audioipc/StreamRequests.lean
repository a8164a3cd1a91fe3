import Audioipc.StreamTokens

/-!
# What the streams of a client rely on

The invariant of `StreamClients`. For each stream, the requests that wait for
the server are ones that its slot is fit for (`Queued`), and its phase says
which slot it owns and what has become of its calls (`PhaseOk`).

A step of the link is the start of a call of somebody else, the queue's
accepting a request, the server's processing one, or nothing to the streams.
Here are the steps that the server has no part in. What is not about a stream
leaves it as it is (`Keeps`).
-/

namespace Audioipc

namespace StreamClients

/-! ## What a stream has waiting -/

/-- The requests accepted that the server has not processed. -/
def pending (s : StreamClients) : List (CallId × Item ServerMessage) :=
  s.rpc.accepted.drop s.processed.length

def requests (s : StreamClients) (id : CallId) : List ServerMessage :=
  (s.pending.filter fun (i, _) => s.owner i = some id).map fun (_, m) => m.body

/-- The server has processed the request of a call, with this response. -/
def Answered (s : StreamClients) (call : CallId) (r : Item ClientMessage) : Prop :=
  ∃ (n : Nat) (m : Item ServerMessage),
    s.rpc.accepted[n]? = some (call, m) ∧ s.processed[n]? = some (m, r)

/-- Requests that the slot of a stream is fit for. -/
inductive Queued (s : StreamClients) (id : CallId) : List ServerMessage → Prop
  | nothing : Queued s id []
  | create (params : StreamCreateParams) : Queued s id [.streamCreate params]
  | init (token : Nat) (howns : s.Owns id token false) : Queued s id [.streamInit token]
  | operations (token : Nat) (ms : List ServerMessage) (howns : s.Owns id token true)
      (hms : ∀ m ∈ ms, m.operates = some token) : Queued s id ms
  | destroy (token : Nat) (ms : List ServerMessage) (howns : s.Owns id token true)
      (hms : ∀ m ∈ ms, m.operates = some token) : Queued s id (ms ++ [.streamDestroy token])

/-- The stream owns the call, which has this request; the queue may have
decided about it. -/
def Calls (s : StreamClients) (id call : CallId) (msg : ServerMessage) (P : Prop) : Prop :=
  s.owner call = some id ∧ ∃ c, s.rpc.calls call = some c ∧ c.request.body = msg ∧
    (c.owns = true → P)

def PhaseOk (s : StreamClients) (id : CallId) : StreamPhase → Prop
  | .creating =>
      (∃ params, s.Calls id id (.streamCreate params) (s.requests id = [])) ∧
      ∀ r token size, s.Answered id r → ClientStream.streamCreated r = some (token, size) →
        s.Owns id token false ∧ s.requests id = []
  | .created token => s.Owns id token false ∧ s.requests id = []
  | .initializing token call =>
      s.Calls id call (.streamInit token) (s.Owns id token false ∧ s.requests id = []) ∧
      ∀ r, s.Answered call r → ClientStream.streamInitialized r = some () →
        s.Owns id token true ∧ s.requests id = []
  | .initialized token => s.Owns id token true ∧ s.requests id = []
  | .alive token _ => s.Owns id token true ∧ ∀ m ∈ s.requests id, m.operates = some token
  | .destroying token call => s.Calls id call (.streamDestroy token)
      (s.Owns id token true ∧ ∀ m ∈ s.requests id, m.operates = some token)
  | .failed | .dropped => True

/-- A call that a stream in this phase may still be making. -/
def Makes (id : CallId) (ph : StreamPhase) (call : CallId) (msg : ServerMessage) : Prop :=
  match ph with
  | .creating => call = id ∧ ∃ params, msg = .streamCreate params
  | .initializing token call' => call = call' ∧ msg = .streamInit token
  | .alive token calls => call ∈ calls ∧ msg.operates = some token
  | .destroying token call' => call = call' ∧ msg = .streamDestroy token
  | _ => False

/-- In particular the queue has not decided about a call of a stream only while
the stream is at it (`calls`). -/
structure Inv [Bincode ServerMessage] [Bincode ClientMessage] (s : StreamClients) : Prop where
  rpc : RpcInv s.link
  server : s.server.Inv
  calls : ∀ call c id, s.rpc.calls call = some c → s.owner call = some id → c.owns = true →
    ∃ ph, s.streams id = some ph ∧ Makes id ph call c.request.body
  owner : ∀ call id, s.owner call = some id → s.rpc.calls call ≠ none ∧ s.streams id ≠ none
  others : ∀ call c, s.rpc.calls call = some c → s.owner call = none →
    c.request.body.ofStream = false
  queued : ∀ id, s.Queued id (s.requests id)
  phases : ∀ id ph, s.streams id = some ph → s.PhaseOk id ph

variable {s s' : StreamClients} {id id' call : CallId} {token : Nat}

theorem Owns.unique {b b' : Bool} (h : s.Owns id token b) (h' : s.Owns id' token b') :
    id = id' ∧ b = b' := by
  obtain ⟨slot, hslot, hmaker, hstream⟩ := h
  obtain ⟨slot', hslot', hmaker', hstream'⟩ := h'
  obtain rfl : slot = slot' := Option.some.inj (hslot.symm.trans hslot')
  exact ⟨Option.some.inj (hmaker.symm.trans hmaker'), hstream.symm.trans hstream'⟩

/-- What a stream relies on and has waiting stays when its slot, its requests
and the responses to it stay and its calls go on. -/
structure Keeps (s s' : StreamClients) (id : CallId) : Prop where
  owns : ∀ token b, s.Owns id token b → s'.Owns id token b
  requests : s'.requests id = s.requests id
  owner : ∀ call, s.owner call = some id → s'.owner call = some id
  calls : ∀ call c, s.rpc.calls call = some c → s.owner call = some id →
    ∃ c', s'.rpc.calls call = some c' ∧ c.Goes c'
  answered : ∀ call r, s.owner call = some id → s'.Answered call r → s.Answered call r

theorem Keeps.queued (h : Keeps s s' id) (hq : s.Queued id (s.requests id)) :
    s'.Queued id (s'.requests id) := by
  rw [h.requests]
  generalize s.requests id = ms at hq
  cases hq with
  | nothing => exact .nothing
  | create params => exact .create params
  | init token howns => exact .init token (h.owns _ _ howns)
  | operations token ms howns hms => exact .operations token ms (h.owns _ _ howns) hms
  | destroy token ms howns hms => exact .destroy token ms (h.owns _ _ howns) hms

theorem Keeps.makes (h : Keeps s s' id) {msg : ServerMessage} {P P' : Prop}
    (hP : P → P') (hc : s.Calls id call msg P) : s'.Calls id call msg P' := by
  obtain ⟨howner, c, hcall, hmsg, hown⟩ := hc
  obtain ⟨c', hcall', hrequest, howns⟩ := h.calls call c hcall howner
  exact ⟨h.owner _ howner, c', hcall', by rw [hrequest, hmsg], fun h' => hP (hown (howns h'))⟩

theorem Keeps.phaseOk (h : Keeps s s' id) {ph : StreamPhase} (hph : s.PhaseOk id ph) :
    s'.PhaseOk id ph := by
  have hnothing : ∀ {token b}, s.Owns id token b ∧ s.requests id = [] →
      s'.Owns id token b ∧ s'.requests id = [] :=
    fun ⟨howns, hnone⟩ => ⟨h.owns _ _ howns, h.requests.trans hnone⟩
  have hoperates : ∀ {token},
      (s.Owns id token true ∧ ∀ m ∈ s.requests id, m.operates = some token) →
      s'.Owns id token true ∧ ∀ m ∈ s'.requests id, m.operates = some token :=
    fun ⟨howns, hms⟩ => ⟨h.owns _ _ howns, h.requests ▸ hms⟩
  cases ph with
  | creating =>
      obtain ⟨⟨params, hcall⟩, hanswered⟩ := hph
      exact ⟨⟨params, h.makes h.requests.trans hcall⟩, fun r token size hr hcreated =>
        hnothing (hanswered r token size (h.answered _ _ hcall.1 hr) hcreated)⟩
  | initializing token call =>
      obtain ⟨hcall, hanswered⟩ := hph
      exact ⟨h.makes hnothing hcall, fun r hr hinit =>
        hnothing (hanswered r (h.answered _ _ hcall.1 hr) hinit)⟩
  | created token | initialized token => exact hnothing hph
  | alive token calls => exact hoperates hph
  | destroying token call => exact h.makes hoperates hph
  | failed | dropped => exact trivial

/-! ## What the link does -/

theorem serve_effect {out : Outcome} {w w' : World} {m : Item ServerMessage}
    {r : Item ClientMessage} (h : CubebServer.serve out w m = (.ok r, w')) :
    CubebServer.SlotEffect out w.1 w'.1 m.body r ∧ w'.1.remotePid = w.1.remotePid := by
  unfold CubebServer.serve CubebServer.process at h
  dsimp only at h
  split at h
  · cases h
    exact ⟨.kept rfl rfl, rfl⟩
  · split at h
    · cases h
    · rename_i served hserved
      cases h
      exact CubebServer.processMsg_effect hserved

theorem serve_panics {out : Outcome} {w w' : World} {m : Item ServerMessage} {msg : String}
    (h : CubebServer.serve out w m = (.error msg, w')) : w'.1 = w.1 := by
  unfold CubebServer.serve CubebServer.process at h
  dsimp only at h
  split at h
  · cases h
  · split at h
    · cases h
      rfl
    · cases h

/-- The server and what it has processed stay as they are. -/
structure Idle (s s' : StreamClients) : Prop where
  server : s'.server = s.server
  processed : s'.processed = s.processed
  maker : s'.maker = s.maker

inductive LinkStep (s s' : StreamClients) : Prop
  | called (call : CallId) (m : Item ServerMessage) (hm : m.body.ofStream = false)
      (hnone : s.rpc.calls call = none)
      (hrpc : s'.rpc = s.rpc.setCall call ⟨m, .pushing, none, true⟩) (hidle : Idle s s') :
      LinkStep s s'
  | went (hprogress : s.rpc.Progress s'.rpc) (hidle : Idle s s') : LinkStep s s'
  | served (out : Outcome) (call : CallId) (m : Item ServerMessage) (r : Item ClientMessage)
      (hvacant : s.server.streams out.key = none) (hnext : s.link.next = some (call, m))
      (heffect : CubebServer.SlotEffect out s.server s'.server m.body r)
      (hpid : s'.server.remotePid = s.server.remotePid)
      (hprocessed : s'.processed = s.processed ++ [(m, r)]) (hrpc : s'.rpc = s.rpc)
      (hmaker : s'.maker = s.made s'.link) : LinkStep s s'

section Step

variable [Bincode ServerMessage] [Bincode ClientMessage] [LawfulBincode ServerMessage]
  [LawfulBincode ClientMessage]

theorem step_link (h : s.Inv) {a : LinkAction (RpcAction (Item ServerMessage)) Outcome}
    (hs : s.step (.link a) = some s') :
    LinkStep s s' ∧ s'.streams = s.streams ∧ s'.owner = s.owner ∧ RpcInv s'.link := by
  simp only [step] at hs
  split at hs
  · rename_i hadmits
    obtain ⟨link, hlink, rfl⟩ := Option.map_eq_some_iff.mp hs
    refine ⟨?_, rfl, rfl, rpcInv_step h.rpc hlink⟩
    have hidle : ∀ {link : StreamLink}, link.server.driver.handler.server.1 = s.server →
        link.server.driver.handler.processed = s.processed →
        Idle s { s with link, maker := s.made link } := by
      intro link hserver hprocessed
      exact ⟨hserver, hprocessed, if_pos (by rw [hserver])⟩
    by_cases hcall : ∃ i m, a = .client (.other (.call i m))
    · obtain ⟨i, m, rfl⟩ := hcall
      obtain ⟨hnone, hrpc, hserver⟩ := rpcStep_call hlink
      exact .called i m (by simpa [admits] using hadmits) hnone hrpc
        (hidle (by rw [hserver]) (by rw [hserver]))
    · have hprogress := rpcStep_progress (fun i m heq => hcall ⟨i, m, heq⟩) hlink
      cases rpcStep_serves h.rpc hlink with
      | nothing hserver hprocessed =>
          exact .went hprogress (hidle (by rw [hserver]) hprocessed)
      | panicked e m msg hprocess hprocessed =>
          exact .went hprogress (hidle (serve_panics hprocess) hprocessed)
      | served e i m r he hnext hprocess hprocessed hclient =>
          subst he
          obtain ⟨heffect, hpid⟩ := serve_effect hprocess
          exact .served e i m r (by simpa [admits] using hadmits) hnext heffect hpid hprocessed
            (congrArg (fun c => c.driver.handler) hclient) rfl
  · cases hs

end Step

/-! ## Steps that the server has no part in -/

theorem Idle.owns (h : Idle s s') {b : Bool} (howns : s.Owns id token b) : s'.Owns id token b := by
  obtain ⟨slot, hslot, hmaker, hstream⟩ := howns
  exact ⟨slot, by rw [h.server]; exact hslot, by rw [h.maker]; exact hmaker, hstream⟩

theorem Idle.keeps (h : Idle s s') (howner : s'.owner = s.owner)
    (haccepted : s'.rpc.accepted = s.rpc.accepted)
    (hcalls : ∀ call c, s.rpc.calls call = some c → ∃ c', s'.rpc.calls call = some c' ∧ c.Goes c')
    (id : CallId) : Keeps s s' id where
  owns _ _ := h.owns
  requests := by simp only [requests, pending, haccepted, h.processed, howner]
  owner call ho := by rw [howner]; exact ho
  calls call c hc _ := hcalls call c hc
  answered call r _ hr := by
    simpa only [Answered, haccepted, h.processed] using hr

theorem pending_accepts {x : CallId × Item ServerMessage}
    (hle : s.processed.length ≤ s.rpc.accepted.length) (hprocessed : s'.processed = s.processed)
    (haccepted : s'.rpc.accepted = s.rpc.accepted ++ [x]) : s'.pending = s.pending ++ [x] := by
  rw [pending, pending, haccepted, hprocessed, List.drop_append_of_le_length hle]

theorem requests_accepts (id : CallId) {c : Call (Item ServerMessage) (Item ClientMessage)}
    (hle : s.processed.length ≤ s.rpc.accepted.length) (hprocessed : s'.processed = s.processed)
    (howner : s'.owner = s.owner)
    (haccepted : s'.rpc.accepted = s.rpc.accepted ++ [(call, c.request)]) :
    s'.requests id =
      if s.owner call = some id then s.requests id ++ [c.request.body] else s.requests id := by
  simp only [requests, pending_accepts hle hprocessed haccepted, howner, List.filter_append,
    List.map_append]
  by_cases hid : s.owner call = some id <;> simp [hid]

theorem Answered.of_accepts {x : CallId × Item ServerMessage} {r : Item ClientMessage}
    (hle : s.processed.length ≤ s.rpc.accepted.length) (hprocessed : s'.processed = s.processed)
    (haccepted : s'.rpc.accepted = s.rpc.accepted ++ [x]) (h : s'.Answered call r) :
    s.Answered call r := by
  obtain ⟨n, m, hn, hr⟩ := h
  rw [hprocessed] at hr
  have hlt : n < s.processed.length := (List.getElem?_eq_some_iff.mp hr).1
  rw [haccepted, List.getElem?_append_left (Nat.lt_of_lt_of_le hlt hle)] at hn
  exact ⟨n, m, hn, hr⟩

theorem Answered.accepted {r : Item ClientMessage} (h : s.Answered call r) :
    ∃ m, (call, m) ∈ s.rpc.accepted := by
  obtain ⟨n, m, haccepted, -⟩ := h
  exact ⟨m, List.mem_of_getElem? haccepted⟩

section Step

variable [Bincode ServerMessage] [Bincode ClientMessage]

theorem Inv.processed_le (h : s.Inv) : s.processed.length ≤ s.rpc.accepted.length := by
  simpa using h.rpc.agreement.order.length_le

theorem Inv.makes (h : s.Inv) {ph : StreamPhase} (hph : s.streams id = some ph)
    {c : Call (Item ServerMessage) (Item ClientMessage)} (hc : s.rpc.calls call = some c)
    (ho : s.owner call = some id) (howns : c.owns = true) : Makes id ph call c.request.body := by
  obtain ⟨ph', hph', hmakes⟩ := h.calls call c id hc ho howns
  obtain rfl : ph = ph' := Option.some.inj (hph.symm.trans hph')
  exact hmakes

theorem Inv.accepted (h : s.Inv) {m : Item ServerMessage} (hm : (call, m) ∈ s.rpc.accepted) :
    ∃ c, s.rpc.calls call = some c ∧ c.request = m ∧ c.owns = false := by
  obtain ⟨c, hc, hrequest, hrefused⟩ := h.rpc.client.order.accepted call m hm
  exact ⟨c, hc, hrequest, Call.not_owns hrefused⟩

/-- The queue has decided about a call that has been answered. -/
theorem Inv.decided (h : s.Inv) {r : Item ClientMessage} (hr : s.Answered call r)
    {c : Call (Item ServerMessage) (Item ClientMessage)} (hc : s.rpc.calls call = some c) :
    c.owns = false := by
  obtain ⟨m, hm⟩ := hr.accepted
  obtain ⟨c', hc', -, howns⟩ := h.accepted hm
  obtain rfl : c = c' := Option.some.inj (hc.symm.trans hc')
  exact howns

theorem Inv.accepts (h : s.Inv) {c c' : Call (Item ServerMessage) (Item ClientMessage)}
    (hc : s.rpc.calls call = some c) (howns : c.owns = true) (hid : s.owner call = some id)
    (hc' : s'.rpc.calls call = some c') (hgoes : c.Goes c') (hdecided : c'.owns = false)
    (hidle : Idle s s') (howner : s'.owner = s.owner)
    (hanswered : ∀ r, s'.Answered call r → s.Answered call r)
    (hrequests : s'.requests id = s.requests id ++ [c.request.body])
    {ph : StreamPhase} (hph : s.streams id = some ph) :
    s'.Queued id (s'.requests id) ∧ s'.PhaseOk id ph := by
  have hmakes := h.makes hph hc hid howns
  have hok := h.phases id ph hph
  have hnot : ∀ r, ¬s'.Answered call r := by
    intro r hr
    have hfalse := h.decided (hanswered r hr) hc
    rw [howns] at hfalse
    cases hfalse
  have howner' : s'.owner call = some id := by rw [howner]; exact hid
  have hcalls : ∀ {msg P}, c.request.body = msg → s'.Calls id call msg P := fun hmsg =>
    ⟨howner', c', hc', by rw [hgoes.1, hmsg], fun h => by rw [hdecided] at h; cases h⟩
  cases ph with
  | creating =>
      obtain ⟨rfl, params, hmsg⟩ := hmakes
      obtain ⟨⟨params', -, c₁, hc₁, -, hnone⟩, -⟩ := hok
      obtain rfl : c = c₁ := Option.some.inj (hc.symm.trans hc₁)
      rw [hrequests, hnone howns, hmsg]
      exact ⟨.create params, ⟨params, hcalls hmsg⟩, fun r token size hr => absurd hr (hnot r)⟩
  | initializing token call' =>
      obtain ⟨rfl, hmsg⟩ := hmakes
      obtain ⟨⟨-, c₁, hc₁, -, hnone⟩, -⟩ := hok
      obtain rfl : c = c₁ := Option.some.inj (hc.symm.trans hc₁)
      obtain ⟨hslot, hnone⟩ := hnone howns
      rw [hrequests, hnone, hmsg]
      exact ⟨.init token (hidle.owns hslot), hcalls hmsg, fun r hr => absurd hr (hnot r)⟩
  | alive token calls =>
      obtain ⟨hslot, hms⟩ := hok
      have hms' : ∀ m ∈ s.requests id ++ [c.request.body], m.operates = some token := by
        intro m hm
        rcases List.mem_append.mp hm with hm | hm
        · exact hms m hm
        · rw [List.mem_singleton.mp hm]
          exact hmakes.2
      rw [hrequests]
      exact ⟨.operations token _ (hidle.owns hslot) hms', hidle.owns hslot, hrequests ▸ hms'⟩
  | destroying token call' =>
      obtain ⟨rfl, hmsg⟩ := hmakes
      obtain ⟨-, c₁, hc₁, -, hslot⟩ := hok
      obtain rfl : c = c₁ := Option.some.inj (hc.symm.trans hc₁)
      obtain ⟨hslot, hms⟩ := hslot howns
      rw [hrequests, hmsg]
      exact ⟨.destroy token _ (hidle.owns hslot) hms, hcalls hmsg⟩
  | _ => cases hmakes

/-- The calls go on, and the queue accepts at most one request. -/
theorem went_inv (h : s.Inv) (hrpc : RpcInv s'.link) (hstreams : s'.streams = s.streams)
    (howner : s'.owner = s.owner) (hprogress : s.rpc.Progress s'.rpc) (hidle : Idle s s') :
    s'.Inv := by
  have hgoes : ∀ call c, s.rpc.calls call = some c →
      ∃ c', s'.rpc.calls call = some c' ∧ c.Goes c' := by
    intro call c hc
    rcases hprogress.calls call with ⟨hnone, -⟩ | ⟨c₁, c', hc₁, hc', hgoes⟩
    · rw [hnone] at hc
      cases hc
    · obtain rfl : c = c₁ := Option.some.inj (hc.symm.trans hc₁)
      exact ⟨c', hc', hgoes⟩
  have hold : ∀ call c', s'.rpc.calls call = some c' →
      ∃ c, s.rpc.calls call = some c ∧ c.Goes c' := by
    intro call c' hc'
    rcases hprogress.calls call with ⟨-, hnone⟩ | ⟨c, c₁, hc, hc₁, hgoes⟩
    · rw [hnone] at hc'
      cases hc'
    · obtain rfl : c' = c₁ := Option.some.inj (hc'.symm.trans hc₁)
      exact ⟨c, hc, hgoes⟩
  have hall : ∀ id, s'.Queued id (s'.requests id) ∧
      ∀ ph, s.streams id = some ph → s'.PhaseOk id ph := by
    intro id
    rcases hprogress.accepted with haccepted | ⟨call, c, hc, howns, haccepted, hdecided⟩
    · have hkeeps := hidle.keeps howner haccepted hgoes id
      exact ⟨hkeeps.queued (h.queued id), fun ph hph => hkeeps.phaseOk (h.phases id ph hph)⟩
    · have hrequests := requests_accepts id h.processed_le hidle.processed howner haccepted
      have hanswered : ∀ call r, s'.Answered call r → s.Answered call r := fun _ _ hr =>
        hr.of_accepts h.processed_le hidle.processed haccepted
      by_cases hid : s.owner call = some id
      · rw [if_pos hid] at hrequests
        obtain ⟨c', hc', hgoes'⟩ := hgoes call c hc
        obtain ⟨ph, hph, -⟩ := h.calls call c id hc hid howns
        have haccepts := h.accepts hc howns hid hc' hgoes' (hdecided c' hc') hidle howner
          (hanswered call) hrequests hph
        refine ⟨haccepts.1, fun ph' hph' => ?_⟩
        obtain rfl : ph = ph' := Option.some.inj (hph.symm.trans hph')
        exact haccepts.2
      · rw [if_neg hid] at hrequests
        have hkeeps : Keeps s s' id :=
          ⟨fun _ _ => hidle.owns, hrequests, fun _ ho => howner ▸ ho, fun call c hc _ =>
            hgoes call c hc, fun call r _ => hanswered call r⟩
        exact ⟨hkeeps.queued (h.queued id), fun ph hph => hkeeps.phaseOk (h.phases id ph hph)⟩
  refine ⟨hrpc, hidle.server ▸ h.server, fun call c' id hc' ho howns => ?_, fun call id ho => ?_,
    fun call c' hc' ho => ?_, fun id => (hall id).1,
    fun id ph hph => (hall id).2 ph (hstreams ▸ hph)⟩
  · obtain ⟨c, hc, hgoes'⟩ := hold call c' hc'
    rw [howner] at ho
    rw [hstreams, hgoes'.1]
    exact h.calls call c id hc ho (hgoes'.2 howns)
  · rw [howner] at ho
    obtain ⟨hcall, hstream⟩ := h.owner call id ho
    obtain ⟨c, hc⟩ := Option.ne_none_iff_exists'.mp hcall
    obtain ⟨c', hc', -⟩ := hgoes call c hc
    exact ⟨by rw [hc']; exact Option.some_ne_none c', hstreams ▸ hstream⟩
  · obtain ⟨c, hc, hgoes'⟩ := hold call c' hc'
    rw [howner] at ho
    rw [hgoes'.1]
    exact h.others call c hc ho

end Step

/-! ## The start of a call -/

structure Started (s s' : StreamClients) (call : CallId) (m : Item ServerMessage) : Prop where
  fresh : s.rpc.calls call = none
  rpc : s'.rpc = s.rpc.setCall call ⟨m, .pushing, none, true⟩
  idle : Idle s s'
  owner : ∀ call', call' ≠ call → s'.owner call' = s.owner call'

section Started

variable {m : Item ServerMessage}

theorem Started.same (hs : Started s s' call m) {call' : CallId} (hne : call' ≠ call) :
    s'.rpc.calls call' = s.rpc.calls call' := by
  rw [hs.rpc]
  exact Function.update_of_ne hne ..

theorem Started.self (hs : Started s s' call m) :
    s'.rpc.calls call = some ⟨m, .pushing, none, true⟩ := by
  rw [hs.rpc]
  exact Function.update_self ..

theorem Started.ne (hs : Started s s' call m) {call' : CallId}
    (hcall : s.rpc.calls call' ≠ none) : call' ≠ call := by
  rintro rfl
  exact hcall hs.fresh

variable [Bincode ServerMessage] [Bincode ClientMessage]

theorem Started.not_accepted (hs : Started s s' call m) (h : s.Inv) {m' : Item ServerMessage} :
    (call, m') ∉ s.rpc.accepted := by
  intro hm
  obtain ⟨c, hc, -⟩ := h.rpc.client.order.accepted call m' hm
  rw [hs.fresh] at hc
  cases hc

theorem Started.not_answered (hs : Started s s' call m) (h : s.Inv) (r : Item ClientMessage) :
    ¬s'.Answered call r := by
  intro hr
  obtain ⟨m', hm'⟩ := hr.accepted
  rw [hs.rpc] at hm'
  exact hs.not_accepted h hm'

theorem Started.keeps (hs : Started s s' call m) (h : s.Inv) (id : CallId) : Keeps s s' id where
  owns _ _ := hs.idle.owns
  requests := by
    have hpending : s'.pending = s.pending := by
      rw [pending, pending, hs.idle.processed, hs.rpc]
      rfl
    have hsame : ∀ x ∈ s.pending,
        decide (s'.owner x.1 = some id) = decide (s.owner x.1 = some id) := by
      intro x hx
      have hne : x.1 ≠ call := by
        rintro rfl
        exact hs.not_accepted h (List.mem_of_mem_drop hx)
      rw [hs.owner x.1 hne]
    rw [requests, requests, hpending, List.filter_congr hsame]
  owner call' ho := by rw [hs.owner call' (hs.ne (h.owner call' id ho).1), ho]
  calls call' c hc _ := by
    have hne : call' ≠ call := hs.ne (by rw [hc]; exact Option.some_ne_none c)
    exact ⟨c, by rw [hs.same hne, hc], rfl, fun howns => howns⟩
  answered call' r _ hr := by
    have haccepted : s'.rpc.accepted = s.rpc.accepted := by
      rw [hs.rpc]
      rfl
    simpa only [Answered, haccepted, hs.idle.processed] using hr

theorem called_inv (h : s.Inv) (hs : Started s s' call m) (hrpc : RpcInv s'.link)
    (hstreams : s'.streams = s.streams) (howner : s'.owner = s.owner)
    (hm : m.body.ofStream = false) : s'.Inv := by
  refine ⟨hrpc, hs.idle.server ▸ h.server, fun call' c id hc ho howns => ?_, fun call' id ho => ?_,
    fun call' c hc ho => ?_, fun id => (hs.keeps h id).queued (h.queued id),
    fun id ph hph => (hs.keeps h id).phaseOk (h.phases id ph (hstreams ▸ hph))⟩
  · rw [howner] at ho
    rw [hs.same (hs.ne (h.owner call' id ho).1)] at hc
    rw [hstreams]
    exact h.calls call' c id hc ho howns
  · rw [howner] at ho
    obtain ⟨hcall, hstream⟩ := h.owner call' id ho
    exact ⟨by rw [hs.same (hs.ne hcall)]; exact hcall, hstreams ▸ hstream⟩
  · rw [howner] at ho
    by_cases hsame : call' = call
    · subst hsame
      rw [hs.self] at hc
      cases hc
      exact hm
    · rw [hs.same hsame] at hc
      exact h.others call' c hc ho

/-- A stream makes a call. Those that it is making besides are known to its
next phase, too. -/
theorem Started.inv (hs : Started s s' call m) (h : s.Inv) (hrpc : RpcInv s'.link)
    {ph : StreamPhase} (hstreams : s'.streams = Function.update s.streams id (some ph))
    (howner : s'.owner call = some id) (hmakes : Makes id ph call m.body)
    (hold : ∀ call' c, s.rpc.calls call' = some c → s.owner call' = some id → c.owns = true →
      Makes id ph call' c.request.body)
    (hph : s'.PhaseOk id ph) : s'.Inv := by
  have hstream : ∀ {id'}, s.streams id' ≠ none ∨ id' = id → s'.streams id' ≠ none := by
    intro id' hid
    rw [hstreams]
    by_cases hsame : id' = id
    · subst hsame
      rw [Function.update_self]
      exact Option.some_ne_none ph
    · rw [Function.update_of_ne hsame]
      exact hid.resolve_right hsame
  refine ⟨hrpc, hs.idle.server ▸ h.server, fun call' c id' hc ho howns => ?_,
    fun call' id' ho => ?_, fun call' c hc ho => ?_,
    fun id' => (hs.keeps h id').queued (h.queued id'), fun id' ph' hph' => ?_⟩
  · by_cases hsame : call' = call
    · subst hsame
      obtain rfl : id = id' := Option.some.inj (howner.symm.trans ho)
      rw [hs.self] at hc
      cases hc
      exact ⟨ph, by rw [hstreams, Function.update_self], hmakes⟩
    · rw [hs.same hsame] at hc
      rw [hs.owner call' hsame] at ho
      by_cases hid : id' = id
      · subst hid
        exact ⟨ph, by rw [hstreams, Function.update_self], hold call' c hc ho howns⟩
      · rw [hstreams, Function.update_of_ne hid]
        exact h.calls call' c id' hc ho howns
  · by_cases hsame : call' = call
    · subst hsame
      obtain rfl : id = id' := Option.some.inj (howner.symm.trans ho)
      exact ⟨by rw [hs.self]; exact Option.some_ne_none _, hstream (Or.inr rfl)⟩
    · rw [hs.owner call' hsame] at ho
      obtain ⟨hcall, hid⟩ := h.owner call' id' ho
      exact ⟨by rw [hs.same hsame]; exact hcall, hstream (Or.inl hid)⟩
  · by_cases hsame : call' = call
    · subst hsame
      rw [howner] at ho
      cases ho
    · rw [hs.same hsame] at hc
      rw [hs.owner call' hsame] at ho
      exact h.others call' c hc ho
  · rw [hstreams] at hph'
    rcases Slab.insert_cases hph' with ⟨rfl, rfl⟩ | ⟨-, hph'⟩
    · exact hph
    · exact (hs.keeps h id').phaseOk (h.phases id' ph' hph')

end Started

end StreamClients

end Audioipc

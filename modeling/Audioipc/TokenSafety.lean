import Audioipc.StreamSlots

/-!
# No two streams have one token

Every step of the clients keeps the invariant (`step_inv`): a step of the
link by one of the lemmas about what it is, a step of a stream by what its
phase says and what the server has answered. `tokens_never_alias` is what the
invariant says about the slots.
-/

namespace Audioipc

namespace StreamClients

variable {s s' : StreamClients} {id id' call : CallId} {token : Nat}

/-! ## A step keeps the invariant -/

theorem result_decided {r : Option (Item ClientMessage)} (hr : s.result call = some r)
    {c : Call (Item ServerMessage) (Item ClientMessage)} (hc : s.rpc.calls call = some c) :
    c.owns = false := by
  unfold result at hr
  split at hr
  · rename_i heq
    cases heq.symm.trans hc
    rfl
  · cases hr

theorem sendRecvResult_ok {α : Type} {r : Option (Item ClientMessage)}
    {expected : Item ClientMessage → Option α} {a : α} (h : sendRecvResult r expected = .ok a) :
    ∃ resp, r = some resp ∧ expected resp = some a := by
  unfold sendRecvResult at h
  split at h
  · exact ⟨_, rfl, sendRecv_ok h⟩
  · cases h

section Step

variable [Bincode ServerMessage] [Bincode ClientMessage]

theorem Inv.setPhase (h : s.Inv) {ph : StreamPhase} (hph : s.PhaseOk id ph)
    (hold : ∀ call c, s.rpc.calls call = some c → s.owner call = some id → c.owns = true →
      Makes id ph call c.request.body) : (s.setPhase id ph).Inv := by
  have hkeeps : ∀ id', Keeps s (s.setPhase id ph) id' := fun id' =>
    ⟨fun _ _ howns => howns, rfl, fun _ ho => ho,
      fun call c hc _ => ⟨c, hc, rfl, fun howns => howns⟩, fun _ _ _ hr => hr⟩
  refine ⟨h.rpc, h.server, fun call c id' hc ho howns => ?_, fun call id' ho => ?_, h.others,
    fun id' => (hkeeps id').queued (h.queued id'), fun id' ph' hph' => ?_⟩
  · obtain ⟨ph', hph', hmakes⟩ := h.calls call c id' hc ho howns
    by_cases hid : id' = id
    · subst hid
      exact ⟨ph, Function.update_self .., hold call c hc ho howns⟩
    · exact ⟨ph', (Function.update_of_ne hid ..).trans hph', hmakes⟩
  · obtain ⟨hcall, hstream⟩ := h.owner call id' ho
    refine ⟨hcall, ?_⟩
    by_cases hid : id' = id
    · subst hid
      show Function.update s.streams id' (some ph) id' ≠ none
      rw [Function.update_self]
      exact Option.some_ne_none ph
    · show Function.update s.streams id (some ph) id' ≠ none
      rw [Function.update_of_ne hid]
      exact hstream
  · rcases Slab.insert_cases hph' with ⟨rfl, rfl⟩ | ⟨-, hph'⟩
    · exact (hkeeps id').phaseOk hph
    · exact (hkeeps id').phaseOk (h.phases id' ph' hph')

theorem Inv.answered (h : s.Inv) {r : Item ClientMessage} (hr : s.result call = some (some r)) :
    s.Answered call r := by
  unfold result at hr
  split at hr
  · rename_i heq
    cases hr
    obtain ⟨n, haccepted, hprocessed⟩ := h.rpc.agreement.result call _ r heq rfl
    exact ⟨n, _, haccepted, hprocessed⟩
  · cases hr

theorem Inv.requests_none (h : s.Inv) (hnone : s.streams id = none) : s.requests id = [] := by
  refine List.map_eq_nil_iff.mpr (List.filter_eq_nil_iff.mpr fun x _ ho => ?_)
  exact (h.owner x.1 id (of_decide_eq_true ho)).2 hnone

/-- A stream whose calls have returned is making none. -/
theorem Inv.no_calls (h : s.Inv) {ph : StreamPhase} (hph : s.streams id = some ph)
    (hdone : ∀ call msg, Makes id ph call msg → (s.result call).isSome = true)
    {c : Call (Item ServerMessage) (Item ClientMessage)} (hc : s.rpc.calls call = some c)
    (ho : s.owner call = some id) (howns : c.owns = true) : False := by
  obtain ⟨r, hr⟩ := Option.isSome_iff_exists.mp (hdone call _ (h.makes hph hc ho howns))
  rw [result_decided hr hc] at howns
  cases howns

/-- A stream whose calls have returned goes on as soon as the next phase is all
right. -/
theorem Inv.goOn (h : s.Inv) {ph ph' : StreamPhase} (hph : s.streams id = some ph)
    (hdone : ∀ call msg, Makes id ph call msg → (s.result call).isSome = true)
    (hok : s.PhaseOk id ph') : (s.setPhase id ph').Inv :=
  h.setPhase hok fun _ _ hc ho howns => (h.no_calls hph hdone hc ho howns).elim

theorem created_inv (h : s.Inv) (hs : s.step (.created id) = some s') : s'.Inv := by
  simp only [step] at hs
  split at hs
  · rename_i r hph hr
    have hok := h.phases id _ hph
    have hdone : ∀ call msg, Makes id .creating call msg → (s.result call).isSome = true := by
      rintro call msg ⟨rfl, -⟩
      rw [hr]
      rfl
    split at hs
    · rename_i token size hcreated
      cases hs
      obtain ⟨resp, rfl, hresp⟩ := sendRecvResult_ok hcreated
      exact h.goOn hph hdone (hok.2 resp token size (h.answered hr) hresp)
    · cases hs
      exact h.goOn hph hdone trivial
  · cases hs

theorem initialized_inv (h : s.Inv) (hs : s.step (.initialized id) = some s') : s'.Inv := by
  simp only [step] at hs
  split at hs
  · rename_i token call hph
    split at hs
    · rename_i r hr
      have hok := h.phases id _ hph
      have hdone : ∀ call' msg, Makes id (.initializing token call) call' msg →
          (s.result call').isSome = true := by
        rintro call' msg ⟨rfl, -⟩
        rw [hr]
        rfl
      split at hs
      · rename_i hinit
        cases hs
        obtain ⟨resp, rfl, hresp⟩ := sendRecvResult_ok hinit
        exact h.goOn hph hdone (hok.2 resp (h.answered hr) hresp)
      · cases hs
        exact h.goOn hph hdone trivial
    · cases hs
  · cases hs

theorem bind_inv (h : s.Inv) (hs : s.step (.bind id) = some s') : s'.Inv := by
  simp only [step] at hs
  split at hs
  · rename_i token hph
    cases hs
    obtain ⟨howns, hnone⟩ := h.phases id _ hph
    refine h.goOn hph (fun _ _ hmakes => hmakes.elim) ⟨howns, fun m hm => ?_⟩
    rw [hnone] at hm
    cases hm
  · cases hs

theorem fail_inv (h : s.Inv) (hs : s.step (.fail id) = some s') : s'.Inv := by
  simp only [step] at hs
  split at hs
  · rename_i hph
    cases hs
    exact h.goOn hph (fun _ _ hmakes => hmakes.elim) trivial
  · rename_i hph
    cases hs
    exact h.goOn hph (fun _ _ hmakes => hmakes.elim) trivial
  · cases hs

theorem operated_inv (h : s.Inv) (hs : s.step (.operated id call) = some s') : s'.Inv := by
  simp only [step] at hs
  split at hs
  · rename_i token calls hph
    split at hs
    · rename_i hreturned
      cases hs
      have hok := h.phases id _ hph
      have hok' : s.PhaseOk id (.alive token (calls.erase call)) := hok
      refine h.setPhase hok' fun call' c hc ho howns => ?_
      have hmakes := h.makes hph hc ho howns
      have hne : call' ≠ call := by
        rintro rfl
        obtain ⟨r, hr⟩ := Option.isSome_iff_exists.mp hreturned
        rw [result_decided hr hc] at howns
        cases howns
      exact ⟨(List.mem_erase_of_ne hne).mpr hmakes.1, hmakes.2⟩
    · cases hs
  · cases hs

theorem destroyed_inv (h : s.Inv) (hs : s.step (.destroyed id) = some s') : s'.Inv := by
  simp only [step] at hs
  split at hs
  · rename_i token call hph
    split at hs
    · rename_i hreturned
      cases hs
      refine h.goOn hph ?_ trivial
      rintro call' msg ⟨rfl, -⟩
      exact hreturned
    · cases hs
  · cases hs

variable [LawfulBincode ServerMessage] [LawfulBincode ClientMessage]

theorem step_call (h : s.Inv) {msg : ServerMessage} {ph : StreamPhase}
    (hs : s.call id call msg ph = some s') :
    Started s s' call (.plain msg rfl) ∧ s'.streams = Function.update s.streams id (some ph) ∧
      s'.owner call = some id ∧ RpcInv s'.link := by
  obtain ⟨link, hlink, rfl⟩ := Option.map_eq_some_iff.mp hs
  obtain ⟨hfresh, hrpc, hserver⟩ := rpcStep_call hlink
  refine ⟨⟨hfresh, hrpc, ⟨?_, ?_, rfl⟩, fun call' hne => Function.update_of_ne hne ..⟩, rfl,
    Function.update_self .., rpcInv_step h.rpc hlink⟩
  · exact congrArg (fun c => c.driver.handler.server.1) hserver
  · exact congrArg (fun c => c.driver.handler.processed) hserver

theorem link_inv (h : s.Inv) {a : LinkAction (RpcAction (Item ServerMessage)) Outcome}
    (hs : s.step (.link a) = some s') : s'.Inv := by
  obtain ⟨hlink, hstreams, howner, hrpc⟩ := step_link h hs
  cases hlink with
  | called call m hm hnone hcall hidle =>
      exact called_inv h ⟨hnone, hcall, hidle, fun call' _ => congrFun howner call'⟩ hrpc hstreams
        howner hm
  | went hprogress hidle => exact went_inv h hrpc hstreams howner hprogress hidle
  | served out call m r hvacant hnext heffect hpid hprocessed hsame hmaker =>
      exact Processed.inv ⟨hvacant, hnext, heffect, hpid, hprocessed, hsame, hmaker, howner⟩ h hrpc
        hstreams

theorem create_inv (h : s.Inv) {params : StreamCreateParams}
    (hs : s.step (.create id params) = some s') : s'.Inv := by
  simp only [step] at hs
  split at hs
  · rename_i hnone
    obtain ⟨hstart, hstreams, howner, hrpc⟩ := step_call h hs
    refine hstart.inv h hrpc hstreams howner ⟨rfl, params, rfl⟩ (fun call c hc ho _ => ?_) ?_
    · exact absurd hnone (h.owner call id ho).2
    · have hrequests := (hstart.keeps h id).requests.trans (h.requests_none hnone)
      exact ⟨⟨params, howner, _, hstart.self, rfl, fun _ => hrequests⟩, fun r _ _ hr =>
        absurd hr (hstart.not_answered h r)⟩
  · cases hs

theorem init_inv (h : s.Inv) (hs : s.step (.init id call) = some s') : s'.Inv := by
  simp only [step] at hs
  split at hs
  · rename_i token hph
    obtain ⟨hstart, hstreams, howner, hrpc⟩ := step_call h hs
    refine hstart.inv h hrpc hstreams howner ⟨rfl, rfl⟩ (fun call c hc ho howns => ?_) ?_
    · exact (h.no_calls hph (fun _ _ hmakes => hmakes.elim) hc ho howns).elim
    · have hok : s'.PhaseOk id (.created token) := (hstart.keeps h id).phaseOk (h.phases id _ hph)
      exact ⟨⟨howner, _, hstart.self, rfl, fun _ => hok⟩, fun r hr =>
        absurd hr (hstart.not_answered h r)⟩
  · cases hs

theorem operate_inv (h : s.Inv) {msg : ServerMessage}
    (hs : s.step (.operate id call msg) = some s') : s'.Inv := by
  simp only [step] at hs
  split at hs
  · rename_i token calls hph
    split at hs
    · rename_i hmsg
      obtain ⟨hstart, hstreams, howner, hrpc⟩ := step_call h hs
      refine hstart.inv h hrpc hstreams howner ⟨List.mem_cons_self, hmsg⟩
        (fun call' c hc ho howns => ?_) ?_
      · have hmakes := h.makes hph hc ho howns
        exact ⟨List.mem_cons_of_mem _ hmakes.1, hmakes.2⟩
      · have hok : s'.PhaseOk id (.alive token calls) :=
          (hstart.keeps h id).phaseOk (h.phases id _ hph)
        exact hok
    · cases hs
  · cases hs

theorem destroy_inv (h : s.Inv) (hs : s.step (.destroy id call) = some s') : s'.Inv := by
  simp only [step] at hs
  split at hs
  · rename_i token hph
    obtain ⟨hstart, hstreams, howner, hrpc⟩ := step_call h hs
    refine hstart.inv h hrpc hstreams howner ⟨rfl, rfl⟩ (fun call' c hc ho howns => ?_) ?_
    · exact absurd (h.makes hph hc ho howns).1 List.not_mem_nil
    · have hok : s'.PhaseOk id (.alive token []) :=
        (hstart.keeps h id).phaseOk (h.phases id _ hph)
      exact ⟨howner, _, hstart.self, rfl, fun _ => hok⟩
  · cases hs

theorem step_inv (h : s.Inv) {a : StreamAction} (hs : s.step a = some s') : s'.Inv := by
  cases a with
  | link a => exact link_inv h hs
  | context k =>
      cases hs
      exact went_inv h (h.rpc.setServer (s.server, k)) rfl rfl (.of_same rfl rfl) ⟨rfl, rfl, rfl⟩
  | create id params => exact create_inv h hs
  | created id => exact created_inv h hs
  | init id call => exact init_inv h hs
  | initialized id => exact initialized_inv h hs
  | bind id => exact bind_inv h hs
  | fail id => exact fail_inv h hs
  | operate id call msg => exact operate_inv h hs
  | operated id call => exact operated_inv h hs
  | destroy id call => exact destroy_inv h hs
  | destroyed id => exact destroyed_inv h hs

omit [LawfulBincode ServerMessage] [LawfulBincode ClientMessage] in
theorem inv_connected (remotePid : Nat) (shmAreaSize : UInt64) (k : Option CubebContextState) :
    (connected remotePid shmAreaSize k).Inv where
  rpc := rpcInv_start _
  server := CubebServer.inv_new remotePid shmAreaSize
  calls _ _ _ hc := nomatch hc
  owner _ _ ho := nomatch ho
  others _ _ hc := nomatch hc
  queued _ := .nothing
  phases _ _ hph := nomatch hph

/-! ## What the invariant says -/

omit [LawfulBincode ServerMessage] [LawfulBincode ClientMessage] in
/-- Only a stream operates a stream or destroys it, and its own. -/
theorem Inv.next_owns (h : s.Inv) {m : Item ServerMessage} (hnext : s.link.next = some (call, m))
    (hm : m.body.operates = some token ∨ m.body = .streamDestroy token) :
    ∃ id, s.owner call = some id ∧ s.Owns id token true := by
  obtain ⟨hlt, heq⟩ := List.getElem?_eq_some_iff.mp hnext
  have hpending : s.pending = (call, m) :: s.rpc.accepted.drop (s.processed.length + 1) := by
    rw [pending, List.drop_eq_getElem_cons hlt, heq]
  cases ho : s.owner call with
  | none =>
      obtain ⟨c, hc, hrequest, -⟩ :=
        h.rpc.client.order.accepted call m (List.mem_of_getElem? hnext)
      have hof := h.others call c hc ho
      rw [hrequest] at hof
      rcases hm with hm | hm
      · cases hbody : m.body <;> rw [hbody] at hof hm <;> cases hof <;> cases hm
      · rw [hm] at hof
        cases hof
  | some id =>
      refine ⟨id, rfl, ?_⟩
      have hqueued := h.queued id
      rw [requests, hpending, List.filter_cons_of_pos (by simp [ho]), List.map_cons] at hqueued
      have hhead : Head s id m.body _ := hqueued.head
      rcases hm with hm | hm
      · exact hhead.of_operates hm
      · rw [hm] at hhead
        exact hhead.of_destroy.1

omit [Bincode ServerMessage] [Bincode ClientMessage] [LawfulBincode ServerMessage]
  [LawfulBincode ClientMessage] in
theorem Owns.tryStream (h : s.Owns id token true) {α : Type} (r : Except CubebError α)
    (f : α → Item ClientMessage) : s.server.tryStream token r f =
      .ok (match r with | .ok a => f a | .error e => error e) := by
  obtain ⟨slot, hslot, -, hstream⟩ := h
  obtain ⟨stream, hstream⟩ := Option.isSome_iff_exists.mp hstream
  unfold CubebServer.tryStream
  rw [hslot]
  dsimp only
  rw [hstream]
  rfl

/-- In every state that the clients of a connection and their server reach,
with all that can happen in between and all that can fail: the token of a
stream that is alive leads to the slot that its own `StreamCreate` has made,
which has a cubeb stream, and no other stream that is alive has the token. An
operation or a `StreamDestroy` that the server comes to is one of the stream
whose slot is at the token, and the operation gets to its cubeb stream. -/
theorem tokens_never_alias (remotePid : Nat) (shmAreaSize : UInt64)
    (k : Option CubebContextState) {as : List StreamAction}
    (hrun : Lts.runs step (connected remotePid shmAreaSize k) as = some s) :
    (s.Up → ∀ id token calls, s.streams id = some (.alive token calls) →
      s.Owns id token true ∧ ∀ id' calls', s.streams id' = some (.alive token calls') → id' = id) ∧
    ∀ call m token, s.link.next = some (call, m) →
      m.body.operates = some token ∨ m.body = .streamDestroy token →
      (∃ id, s.owner call = some id ∧ s.Owns id token true) ∧
      ∀ {α : Type} (r : Except CubebError α) (f : α → Item ClientMessage),
        s.server.tryStream token r f = .ok (match r with | .ok a => f a | .error e => error e) := by
  have h : s.Inv := Lts.runs_invariant (fun _ _ _ h hs => step_inv h hs)
    (inv_connected remotePid shmAreaSize k) hrun
  refine ⟨fun _ id token calls hph => ?_, fun call m token hnext hm => ?_⟩
  · have howns := (h.phases id _ hph).1
    exact ⟨howns, fun id' calls' hph' => ((h.phases id' _ hph').1.unique howns).1⟩
  · obtain ⟨id, ho, howns⟩ := h.next_owns hnext hm
    exact ⟨⟨id, ho, howns⟩, howns.tryStream⟩

end Step

/-! ## A run -/

section Run

/-- bincode at the requests of this run. -/
local instance : Bincode ServerMessage where
  serializeInto
    | .streamCreate params =>
        if params = outputStream then (outputStreamBytes, .ok ())
        else ([], .error (.other "not in this run"))
    | .streamInit token =>
        if token < 251 then ([11, .ofNat token], .ok ())
        else ([], .error (.other "not in this run"))
    | .streamDestroy token =>
        if token < 251 then ([12, .ofNat token], .ok ())
        else ([], .error (.other "not in this run"))
    | .streamStart token =>
        if token < 251 then ([13, .ofNat token], .ok ())
        else ([], .error (.other "not in this run"))
    | _ => ([], .error (.other "not in this run"))
  deserialize
    | [11, token] => .ok (.streamInit token.toNat)
    | [12, token] => .ok (.streamDestroy token.toNat)
    | [13, token] => .ok (.streamStart token.toNat)
    | bytes =>
        if bytes = outputStreamBytes then .ok (.streamCreate outputStream)
        else .error (.other "not in this run")

/-- bincode at the responses to them. -/
local instance : Bincode ClientMessage where
  serializeInto
    | .streamCreated token shmAreaSize =>
        if token < 251 ∧ shmAreaSize < 251 then
          ([10, .ofNat token, 1, .ofNat shmAreaSize.toNat], .ok ())
        else ([], .error (.other "not in this run"))
    | .streamInitialized => ([11, 1], .ok ())
    | .streamDestroyed => ([12], .ok ())
    | _ => ([], .error (.other "not in this run"))
  deserialize
    | [10, token, 1, shmAreaSize] => .ok (.streamCreated token.toNat (.ofNat shmAreaSize.toNat))
    | [11, 1] => .ok .streamInitialized
    | [12] => .ok .streamDestroyed
    | _ => .error (.other "not in this run")

theorem toNat_ofNat_small {n : Nat} (h : n < 251) : (UInt8.ofNat n).toNat = n :=
  UInt8.toNat_ofNat_of_lt' (Nat.lt_trans h (by decide))

local instance : LawfulBincode ServerMessage where
  deserialize_serializeInto := by
    intro msg bytes h
    cases msg with
    | streamCreate params =>
        simp only [Bincode.serializeInto] at h
        split at h <;> cases h
        rename_i hparams
        rw [hparams]
        rfl
    | streamInit token =>
        simp only [Bincode.serializeInto] at h
        split at h <;> cases h
        rename_i htoken
        exact congrArg (fun n => Except.ok (ServerMessage.streamInit n)) (toNat_ofNat_small htoken)
    | streamDestroy token =>
        simp only [Bincode.serializeInto] at h
        split at h <;> cases h
        rename_i htoken
        exact congrArg (fun n => Except.ok (ServerMessage.streamDestroy n))
          (toNat_ofNat_small htoken)
    | streamStart token =>
        simp only [Bincode.serializeInto] at h
        split at h <;> cases h
        rename_i htoken
        exact congrArg (fun n => Except.ok (ServerMessage.streamStart n)) (toNat_ofNat_small htoken)
    | _ => cases h

local instance : LawfulBincode ClientMessage where
  deserialize_serializeInto := by
    intro msg bytes h
    cases msg with
    | streamCreated token shmAreaSize =>
        simp only [Bincode.serializeInto] at h
        split at h <;> cases h
        rename_i hsmall
        have hsize : shmAreaSize.toNat < 251 := UInt64.lt_iff_toNat_lt.mp hsmall.2
        show Except.ok (ClientMessage.streamCreated (UInt8.ofNat token).toNat
          (.ofNat (UInt8.ofNat shmAreaSize.toNat).toNat)) = _
        rw [toNat_ofNat_small hsmall.1, toNat_ofNat_small hsize, UInt64.ofNat_toNat]
    | streamInitialized | streamDestroyed =>
        cases h
        rfl
    | _ => cases h

/-- A call up to its acceptance. -/
def pushScript (call : CallId) : List StreamAction :=
  [.link (.client (.other (.upgrade call))), .link (.client (.other (.push call))),
   .link (.client (.other (.release call)))]

/-- The rest of a call, with the lengths of the two frames. -/
def serveScript (call : CallId) (request response : Nat) (out : Outcome) : List StreamAction :=
  let idle : RpcAction (Item ServerMessage) := .cloneProxy
  let none : Outcome := .success 6
  [.client .wake, .client (.flushItem idle), .client (.flushItem idle),
   .client (.sendMsg (.ok request)), .client (.finish true),
   .server (.event true), .server (.recvMsg (.ok request)), .server (.processItem out),
   .server (.processItem none), .server (.recvMsg (.error .wouldBlock)),
   .server (.flushItem none), .server (.flushItem none), .server (.sendMsg (.ok response)),
   .server (.finish true), .client (.event true), .client (.recvMsg (.ok response)),
   .client (.processItem idle), .client (.processItem idle),
   .client (.recvMsg (.error .wouldBlock)), .client (.flushItem idle), .client (.finish true),
   .client (.other (.finish call))].map .link

/-- The stream `id` is opened; its slot gets the key `token`. -/
def openScript (id call : CallId) (token : Nat) : List StreamAction :=
  .create id outputStream :: pushScript id ++ serveScript id 29 16 (.success token) ++
    [.created id, .init id call] ++ pushScript call ++ serveScript call 14 14 (.success 6) ++
    [.initialized id, .bind id]

/-- Two streams are opened and the first is dropped; a third one gets its key,
and the server has not come to its `StreamStart`. -/
def reuseScript : List StreamAction :=
  openScript 0 1 0 ++ openScript 2 3 1 ++ [.destroy 0 4] ++ pushScript 4 ++
    serveScript 4 14 13 (.success 2) ++ [.destroyed 0] ++ openScript 5 6 0 ++
    [.operate 5 7 (.streamStart 0)] ++ pushScript 7

theorem tokens_never_alias_run : ∃ s m,
    Lts.runs step (connected 1 64 none) reuseScript = some s ∧ s.Up ∧
      s.streams 0 = some .dropped ∧ s.streams 2 = some (.alive 1 []) ∧
      s.streams 5 = some (.alive 0 [7]) ∧ s.Owns 2 1 true ∧ s.Owns 5 0 true ∧
      s.link.next = some (7, m) ∧ ∃ id, s.owner 7 = some id ∧ s.Owns id 0 true := by
  have hrun : (Lts.runs step (connected 1 64 none) reuseScript).map (fun s =>
      (decide s.Up, [0, 2, 5].map s.streams, s.link.next.map fun x => (x.1, x.2.body))) =
      some (true, [some .dropped, some (.alive 1 []), some (.alive 0 [7])],
        some (7, .streamStart 0)) := by decide +kernel
  obtain ⟨s, hs, heq⟩ := Option.map_eq_some_iff.mp hrun
  simp only [Prod.mk.injEq, List.map_cons, List.map_nil, List.cons.injEq, decide_eq_true_eq] at heq
  obtain ⟨hup, ⟨hdropped, halive, hreused, -⟩, hnext⟩ := heq
  obtain ⟨⟨call, m⟩, hnext, hm⟩ := Option.map_eq_some_iff.mp hnext
  obtain ⟨rfl, hm⟩ := Prod.mk.inj hm
  have hsafe := tokens_never_alias 1 64 none hs
  have hbody : m.body.operates = some 0 := by rw [hm]; rfl
  exact ⟨s, m, hs, hup, hdropped, halive, hreused, (hsafe.1 hup 2 1 [] halive).1,
    (hsafe.1 hup 5 0 [7] hreused).1, hnext, (hsafe.2 7 m 0 hnext (Or.inl hbody)).1⟩

end Run

end StreamClients

end Audioipc

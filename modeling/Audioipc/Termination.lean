import Audioipc.Liveness
import Audioipc.Measure
import Audioipc.Requests

/-!
# Every call returns

A loop on which something goes on of itself while a call has not returned
(`no_deadlock`) might do so forever. It does not, as each such step of the
loop, of a server or of the kernel reduces what is left to do (`step_left`).
So if no wake is lost and the callers begin no further calls, all calls
return, however the steps are ordered (`calls_return`).
-/

namespace Audioipc

variable {S E Req Resp : Type} [Bincode Req] [AssociateHandleForMessage Req]
  [Bincode Resp] [AssociateHandleForMessage Resp]

namespace PolledLoop

variable {process : E → S → Item Req → Except String (Item Resp) × S}
  {s s' : PolledLoop S Req Resp} {id : ConnId} {ids : ConnId → List CallId}

/-! ## The steps of the loop -/

omit [Bincode Req] [Bincode Resp] in
/-- A connection has one token, and so one event. -/
theorem length_reported_le (hslabbed : s.loop.Slabbed) {es : List (Token × Bool)}
    (hnodup : (es.map Prod.fst).Nodup) (id : ConnId) :
    (es.filter fun e => s.loop.slab e.1 = some id).length ≤ 1 := by
  obtain ⟨token, htoken⟩ : ∃ token, ∀ t, s.loop.slab t = some id → t = token := by
    by_cases hid : ∃ t, s.loop.slab t = some id
    · obtain ⟨t, ht⟩ := hid
      obtain ⟨e, he, rfl⟩ := hslabbed.registered t id ht
      refine ⟨e.token, fun t' ht' => ?_⟩
      obtain ⟨e', he', rfl⟩ := hslabbed.registered t' id ht'
      rw [he] at he'
      cases he'
      rfl
    · exact ⟨0, fun t ht => absurd ⟨t, ht⟩ hid⟩
  have hall : ∀ t ∈ (es.filter fun e => s.loop.slab e.1 = some id).map Prod.fst, t = token := by
    intro t ht
    obtain ⟨e, he, rfl⟩ := List.mem_map.mp ht
    exact htoken e.1 (by simpa using (List.mem_filter.mp he).2)
  have hsub : ((es.filter fun e => s.loop.slab e.1 = some id).map Prod.fst).Nodup :=
    hnodup.sublist (List.filter_sublist.map _)
  rw [List.eq_replicate_of_mem hall, List.nodup_replicate, List.length_map] at hsub
  exact hsub

/-- The poll takes notice of edges, or of the waker. -/
theorem left_polled (h : s.Attentive) {es : List (Token × Bool)} (hph : s.loop.phase = .polling)
    (hgo : s.goesOn (.loop (.poll es) : PolledAction Req E) = true)
    (hloop : s'.loop = { s.loop with phase := .events es, waker := false })
    (hbound : s'.bound = s.bound)
    (hfar : ∀ id, s'.far id = if es.any fun e => s.loop.slab e.1 = some id then
      { s.far id with near := { (s.far id).near with readable := false, writable := false } }
      else s.far id) : left ids s' < left ids s := by
  simp only [goesOn, Bool.and_eq_true, Bool.or_eq_true, decide_eq_true_eq] at hgo
  obtain ⟨⟨hwoken, hnodup⟩, hedges⟩ := hgo
  have hnone : ∀ id, reported s.loop id = [] := fun id =>
    reported_of_listed (by rw [hph]; rfl)
  have hconn : ∀ id, connOf s'.loop id = connOf s.loop id := fun id =>
    connOf_congr (by rw [hloop])
  have hway : ∀ id, wayOf ids s' id = wayOf ids s id := by
    intro id
    have hlink : s'.link id = s.link id := by
      rw [link, link, hconn, hfar]
      split <;> rfl
    rw [wayOf, wayOf, hlink, owedBy, owedBy, hloop]
  -- an edge weighs more than the event that reports it
  have hless : ∀ id, (es.any fun e => s.loop.slab e.1 = some id) = true →
      s'.endsOf id < s.endsOf id := by
    intro id hany
    obtain ⟨⟨token, readable⟩, he, htoken⟩ := List.any_eq_true.mp hany
    have hedge := List.all_eq_true.mp hedges _ he
    have htoken' : s.loop.slab token = some id := by simpa using htoken
    have hone : (reported s'.loop id).length ≤ 1 := by
      simp only [reported, hloop, LoopPhase.listed, List.length_map]
      exact length_reported_le h.woken.slabbed hnodup id
    have hbits : 0 < (s.far id).near.readable.toNat + (s.far id).near.writable.toNat := by
      simp only [htoken', Bool.or_eq_true] at hedge
      rcases hedge with hr | hw
      · simp [hr]
      · simp [hw]
    simp only [endsOf, ends, link, hconn, hfar, hany, if_true, hnone, Readiness.left,
      List.length_nil, Bool.toNat_false]
    omega
  have hends : ∀ id, s'.endsOf id ≤ s.endsOf id := by
    intro id
    by_cases hany : (es.any fun e => s.loop.slab e.1 = some id) = true
    · exact Nat.le_of_lt (hless id hany)
    · refine endsOf_same (hconn id) ((hfar id).trans (if_neg hany)) ?_
      simp only [List.any_eq_true, not_exists, not_and] at hany
      simp only [reported, hloop, LoopPhase.listed]
      rw [List.filter_eq_nil_iff.mpr hany]
      exact Nat.zero_le _
  refine left_lt (by rw [hloop]) hbound (fun id => (hway id).le)
    (Or.inr (Or.inr ⟨by rw [hloop], hends, ?_⟩))
  cases es with
  | nil =>
      right
      have hwaker : s.loop.waker = true := by simpa using hwoken
      simp [loopLeft, hloop, hph, placeLeft, hwaker]
  | cons e es =>
      left
      have hedge := List.all_eq_true.mp hedges e (List.mem_cons_self ..)
      cases htoken : s.loop.slab e.1 with
      | none => simp [htoken] at hedge
      | some id =>
          obtain ⟨e', he', -⟩ := h.woken.slabbed.registered e.1 id htoken
          exact ⟨id, h.bound id (by rw [he']; rfl), hless id (by simp [htoken])⟩

omit [Bincode Req] [Bincode Resp] in
theorem wayOf_start (ids : ConnId → List CallId)
    {start : ClientConnection Unit Req Resp → ClientConnection Unit Req Resp}
    (hstart : start = (·.handleWake) ∨ ∃ readable, start = (·.handleEvent readable))
    (hconn : connOf s'.loop id = start (connOf s.loop id)) (hfar : s'.far id = s.far id)
    (howing : s'.loop.owing = s.loop.owing) (hidle : (connOf s.loop id).phase = .idle) :
    wayOf ids s' id = wayOf ids s id ∧
      ends (s'.link id) (s'.far id).near (s'.far id).far ≤
        ends (s.link id) (s.far id).near (s.far id).far + 4 := by
  simp only [wayOf, owedBy, howing, way, ends, link, hconn, hfar, Readiness.left, hidle]
  rcases hstart with rfl | ⟨readable, rfl⟩
  · exact ⟨rfl, by simp only [Connection.handleWake, Phase.left]; omega⟩
  · cases readable
    · exact ⟨rfl, by simp only [Connection.handleEvent, Phase.left]; simp; omega⟩
    · exact ⟨rfl, by simp only [Connection.handleEvent, Phase.left]; simp; omega⟩

/-- An event weighs more than the place that it brings the thread to. -/
theorem left_event' (h : s.Attentive) {token : Token} {readable : Bool} {es : List (Token × Bool)}
    (hph : s.loop.phase = .events ((token, readable) :: es))
    (hloop : s'.loop = { s.loop with phase := .events es }.enter token (.handlingEvent · es)
      (·.handleEvent readable)) (hbound : s'.bound = s.bound) (hfar : s'.far = s.far) :
    left ids s' < left ids s := by
  have hslabbed : ({ s.loop with phase := .events es }).Slabbed :=
    h.woken.slabbed.leave (.events es) (by simp) rfl
  obtain ⟨hslab, hphase⟩ := EventLoop.enter_eq { s.loop with phase := .events es } token
    (.handlingEvent · es) (·.handleEvent readable)
  rw [← hloop] at hslab hphase
  have hcons : ∀ id, reported s.loop id = if s.loop.slab token = some id then
      readable :: reported s'.loop id else reported s'.loop id :=
    reported_cons (by rw [hph]; rfl) hslab
      (by rcases hphase with h | ⟨_, h⟩ <;> rw [h] <;> rfl)
  rcases enters hslabbed hloop rfl rfl with
    ⟨hnone, heq⟩ | ⟨id, e, htoken, he, hconn, -, hrequests, howing, -, hothers⟩
  · have hconn : ∀ id, connOf s'.loop id = connOf s.loop id := fun id =>
      connOf_congr (by rw [heq])
    refine left_lt (by rw [heq]) hbound
      (fun id => (wayOf_same (hconn id) (by rw [hfar]) (by rw [heq])).le) (Or.inr (Or.inr
      ⟨by rw [heq], fun id => endsOf_same (hconn id) (by rw [hfar]) ?_, Or.inr ?_⟩))
    · rw [hcons id, if_neg (by simp [hnone])]
    · simp [loopLeft, heq, hph, placeLeft]
  · have hidle : (connOf s.loop id).phase = .idle := h.idle (by rw [hph]; rfl) htoken he
    obtain ⟨hway, hends⟩ := wayOf_start ids (Or.inr ⟨readable, rfl⟩) hconn
      (by rw [hfar]) howing hidle
    have hless : s'.endsOf id < s.endsOf id := by
      simp only [endsOf, hcons id, htoken, if_true, List.length_cons]
      omega
    refine left_lt (by rw [hrequests]) hbound (fun id' => ?_) (Or.inr (Or.inr
      ⟨by rw [hrequests], fun id' => ?_, Or.inl ⟨id, h.bound id (by rw [he]; rfl), hless⟩⟩))
    · by_cases hid : id' = id
      · rw [hid, hway]
      · exact (wayOf_same (hothers id' hid) (by rw [hfar]) howing).le
    · by_cases hid : id' = id
      · exact hid ▸ Nat.le_of_lt hless
      · refine endsOf_same (hothers id' hid) (by rw [hfar]) ?_
        rw [hcons id', if_neg (by simpa [htoken] using Ne.symm hid)]

/-- A wake is paid for by its place in the queue. -/
theorem left_woken (h : s.Attentive) {token : Token} {requests : List (Request Unit)}
    (hph : s.loop.phase = .popping)
    (hrequests : s.loop.requests = .wakeConnection token :: requests)
    (hloop : s'.loop = { s.loop with requests }.enter token .handlingWake (·.handleWake))
    (hbound : s'.bound = s.bound) (hfar : s'.far = s.far) : left ids s' < left ids s := by
  have hslabbed : ({ s.loop with requests }).Slabbed := h.woken.slabbed.congr rfl rfl rfl
  have hless : requests.length < s.loop.requests.length := by simp [hrequests]
  have hsame : others requests ≤ others s.loop.requests := by simp [others, hrequests]
  rcases enters hslabbed hloop rfl rfl with
    ⟨-, heq⟩ | ⟨id, e, htoken, he, hconn, -, hreq, howing, -, hothers⟩
  · refine left_lt (by rw [heq]; exact hsame) hbound (fun id => (wayOf_same ?_ (by rw [hfar])
      (by rw [heq])).le) (Or.inr (Or.inl (by rw [heq]; exact hless)))
    exact connOf_congr (by rw [heq])
  · have hidle : (connOf s.loop id).phase = .idle := h.idle (by rw [hph]; rfl) htoken he
    refine left_lt (by rw [hreq]; exact hsame) hbound (fun id' => ?_)
      (Or.inr (Or.inl (by rw [hreq]; exact hless)))
    by_cases hid : id' = id
    · rw [hid, (wayOf_start ids (Or.inl rfl) hconn (by rw [hfar]) howing hidle).1]
    · exact (wayOf_same (hothers id' hid) (by rw [hfar]) howing).le

omit [Bincode Req] [Bincode Resp] in
/-- A step that changes one connection brings its messages or its threads
nearer. -/
theorem left_at (hid : id ∈ s.bound) (hrequests : s'.loop.requests = s.loop.requests)
    (howing : s'.loop.owing = s.loop.owing) (hbound : s'.bound = s.bound)
    (hreported : ∀ id', (reported s'.loop id').length ≤ (reported s.loop id').length)
    (hothers : ∀ id', id' ≠ id → connOf s'.loop id' = connOf s.loop id' ∧ s'.far id' = s.far id')
    (h : way (ids id) (owedBy s.loop id) (s'.link id) <
        way (ids id) (owedBy s.loop id) (s.link id) ∨
      way (ids id) (owedBy s.loop id) (s'.link id) ≤
        way (ids id) (owedBy s.loop id) (s.link id) ∧
      ends (s'.link id) (s'.far id).near (s'.far id).far <
        ends (s.link id) (s.far id).near (s.far id).far) : left ids s' < left ids s := by
  have howed : owedBy s'.loop id = owedBy s.loop id := by rw [owedBy, owedBy, howing]
  have hway : ∀ id', wayOf ids s' id' ≤ wayOf ids s id' := by
    intro id'
    by_cases hid' : id' = id
    · subst hid'
      rw [wayOf, wayOf, howed]
      exact h.elim le_of_lt And.left
    · obtain ⟨hconn, hfar⟩ := hothers id' hid'
      exact (wayOf_same hconn hfar howing).le
  refine left_lt (by rw [hrequests]) hbound hway ?_
  rcases h with hless | ⟨-, hless⟩
  · exact Or.inl ⟨id, hid, by rwa [wayOf, wayOf, howed]⟩
  · have hreported' := hreported id
    have hends : s'.endsOf id < s.endsOf id := by
      simp only [endsOf]
      omega
    refine Or.inr (Or.inr ⟨by rw [hrequests], fun id' => ?_, Or.inl ⟨id, hid, hends⟩⟩)
    by_cases hid' : id' = id
    · exact hid' ▸ Nat.le_of_lt hends
    · obtain ⟨hconn, hfar⟩ := hothers id' hid'
      exact endsOf_same hconn hfar (hreported id')

omit [Bincode Req] [Bincode Resp] in
theorem length_reported_le_of {l l' : EventLoop Unit Req Resp}
    (hphase : l'.phase.listed = l.phase.listed)
    (hslab : ∀ t, l'.slab t = some id → l.slab t = some id) :
    (reported l' id).length ≤ (reported l id).length := by
  rw [reported, reported, hphase, List.length_map, List.length_map]
  refine (List.monotone_filter_right _ fun e he => ?_).length_le
  simpa using hslab e.1 (by simpa using he)

theorem left_conn [LawfulBincode Resp] (h : s.Attentive) {w : List Tok}
    {a : ConnAction (RpcAction (Item Req))} {e : Entry Unit Req Resp}
    {conn : ClientConnection Unit Req Resp} (hat : s.loop.AtConn bytePipe w a id e conn)
    (hgo : s.goesOn (.loop (.conn w a) : PolledAction Req E) = true)
    (hadmits : s.admits (.conn w a) = true)
    (hentries : s'.loop.entries = (s.loop.setConn id e conn).entries)
    (hfar : s'.far = s.farAfter process s'.loop (.conn w a)) (hbound : s'.bound = s.bound)
    (hrequests : s'.loop.requests = s.loop.requests) (howing : s'.loop.owing = s.loop.owing)
    (hphase : s'.loop.phase.listed = s.loop.phase.listed)
    (hslab : ∀ t id', s'.loop.slab t = some id' → s.loop.slab t = some id') :
    left ids s' < left ids s := by
  obtain ⟨toks, hsteps⟩ := steps_conn hat hadmits hentries hfar
  refine left_at (h.bound id (by rw [hat.entry]; rfl)) hrequests howing hbound
    (fun id' => length_reported_le_of hphase fun t => hslab t id') hsteps.others ?_
  have hgo' : (s.far id).near.goesOn (s.far id).server.phase a = true := by
    simpa [goesOn, hat.current] using hgo
  rw [hsteps.link, hsteps.near, hsteps.far]
  exact client_nearer hgo' (admits_conn hat.current hadmits).2 hsteps.step

theorem left_caller (h : s.Attentive) {a : RpcAction (Item Req)} {e : Entry Unit Req Resp}
    {conn : ClientConnection Unit Req Resp}
    (hids : Covers (ids id) e.conn.driver.handler.calls) (he : s.loop.entries id = some e)
    (hgo : ClientRpc.goesOn a = true)
    (hstep : clientStep bytePipe e.conn ([], .other a) = some conn)
    (hloop : s'.loop = { s.loop.setConn id e conn with
      owing := s.loop.owing ++ EventLoop.owed conn id a })
    (hfar : s'.far = s.far) (hbound : s'.bound = s.bound) : left ids s' < left ids s := by
  have howed : ∀ id', owedBy s'.loop id' = owedBy s.loop id' +
      if id' = id then (EventLoop.owed conn id a).length else 0 := by
    intro id'
    rw [owedBy, owedBy, hloop, List.map_append, List.count_append]
    congr 1
    unfold EventLoop.owed
    split
    · split
      · by_cases hid : id' = id <;> simp [hid, Ne.symm]
      · simp
    · simp
  have hset : ∀ id', connOf s'.loop id' = if id' = id then conn else connOf s.loop id' :=
    fun id' => connOf_setConn (l := s.loop) (by rw [hloop])
  have hold : connOf s.loop id = e.conn := connOf_entry he
  have hless : wayOf ids s' id < wayOf ids s id := by
    rw [clientStep_caller] at hstep
    obtain ⟨handler, hops, rfl⟩ := Option.map_eq_some_iff.mp hstep
    have hleft := left_other id (owedBy s.loop id)
      { e.conn with driver := { e.conn.driver with handler } } hids hgo hops rfl
    rw [wayOf, wayOf, howed, if_pos rfl, link, link, hset, if_pos rfl, hfar, hold]
    exact way_lt (Or.inr ⟨le_refl _, Or.inl hleft⟩)
  refine left_lt (by rw [hloop]; rfl) hbound (fun id' => ?_)
    (Or.inl ⟨id, h.bound id (by rw [he]; rfl), hless⟩)
  by_cases hid : id' = id
  · exact hid ▸ le_of_lt hless
  · refine le_of_eq ?_
    rw [wayOf, wayOf, howed, if_neg hid, link, link, hset, if_neg hid, hfar, Nat.add_zero]

/-- The push of a wake, also where it is lost on a handler that is not live. -/
theorem left_pushWake (h : s.Attentive) {call : CallId} (howing : (id, call) ∈ s.loop.owing)
    (hentries : s'.loop.entries = s.loop.entries)
    (howing' : s'.loop.owing = s.loop.owing.erase (id, call))
    (hothers : others s'.loop.requests = others s.loop.requests)
    (hfar : s'.far = s.far) (hbound : s'.bound = s.bound) : left ids s' < left ids s := by
  have hcount : ∀ id', owedBy s.loop id' = owedBy s'.loop id' + if id' = id then 1 else 0 := by
    intro id'
    have hperm := ((List.perm_cons_erase howing).map Prod.fst).count_eq id'
    rw [List.map_cons, List.count_cons] at hperm
    rw [owedBy, owedBy, howing', hperm]
    by_cases hid : id' = id <;> simp [hid, Ne.symm]
  have hlink : ∀ id', s'.link id' = s.link id' := fun id' => by
    rw [link, link, connOf_congr hentries, hfar]
  have hless : wayOf ids s' id < wayOf ids s id := by
    rw [wayOf, wayOf, hlink, hcount id, if_pos rfl]
    refine way_lt (Or.inr ⟨le_refl _, Or.inl ?_⟩)
    simp only [ClientRpc.left]
    omega
  refine left_lt hothers.le hbound (fun id' => ?_)
    (Or.inl ⟨id, h.bound id (h.owing id call howing), hless⟩)
  by_cases hid : id' = id
  · exact hid ▸ le_of_lt hless
  · refine le_of_eq ?_
    rw [wayOf, wayOf, hlink, hcount id', if_neg hid, Nat.add_zero]

theorem left_server [LawfulBincode Req] (h : s.Attentive) {a : ConnAction E}
    (hgo : s.goesOn (.server id a) = true) (hstep : s.step process (.server id a) = some s') :
    left ids s' < left ids s := by
  simp only [goesOn, Bool.and_eq_true] at hgo
  simp only [step] at hstep
  split at hstep
  · rename_i hadmits
    obtain ⟨k, hlink, rfl⟩ := Option.map_eq_some_iff.mp hstep
    obtain ⟨⟨c, toks, up⟩, hconn, rfl⟩ := Option.map_eq_some_iff.mp hlink
    refine left_at (h.bound id hgo.1) rfl rfl rfl (fun _ => le_refl _)
      (fun id' hne => ⟨rfl, Function.update_of_ne hne ..⟩) ?_
    simp only [link, Function.update_self]
    exact server_nearer (k := s.link id) hgo.2 hadmits hconn
  · cases hstep

theorem left_rooms (h : s.Attentive) {a : PolledAction Req E}
    (ha : a = .roomUp id ∨ a = .roomDown id)
    (hgo : s.goesOn a = true) (hstep : s.step process a = some s') : left ids s' < left ids s := by
  rcases ha with rfl | rfl <;> simp only [goesOn, Bool.and_eq_true] at hgo <;>
    simp only [step] at hstep <;> split at hstep <;> cases hstep <;> rename_i hfull <;>
    refine left_at (h.bound id hgo.1) rfl rfl rfl (fun _ => le_refl _)
      (fun id' hne => ⟨rfl, Function.update_of_ne hne ..⟩) (Or.inr ⟨?_, ?_⟩)
  all_goals simp only [link, Function.update_self]
  · exact le_refl _
  · have := left_room (p := (connOf s.loop id).phase) hfull hgo.2
    simp only [ends]
    omega
  · exact le_refl _
  · have := left_room (p := (s.far id).server.phase) hfull hgo.2
    simp only [ends]
    omega

/-- What the calls in `ids` are. -/
def Covered (ids : ConnId → List CallId) (s : PolledLoop S Req Resp) : Prop :=
  ∀ id, Covers (ids id) (connOf s.loop id).driver.handler.calls

omit [Bincode Req] [Bincode Resp] in
theorem boundAfter_same {a : LoopAction Unit Req} {loop : EventLoop Unit Req Resp}
    (h : ∀ id, (loop.entries id).isSome = (s.loop.entries id).isSome) :
    s.boundAfter loop a = s.bound := by
  unfold boundAfter
  split
  · rename_i id _
    rw [if_neg]
    rw [h id]
    cases s.loop.entries id <;> simp
  · rfl

theorem left_loop [LawfulBincode Req] [LawfulBincode Resp] (h : s.Attentive)
    (hids : Covered ids s) {a : LoopAction Unit Req} {loop : EventLoop Unit Req Resp}
    (hgo : s.goesOn (.loop a : PolledAction Req E) = true) (hadmits : s.admits a = true)
    (hstep : s.loop.step bytePipe a = some loop) :
    left ids (s.afterLoop process a loop) < left ids s := by
  have hfewer : ∀ {requests : List (Request Unit)} {r : Request Unit},
      (∀ token, r ≠ .wakeConnection token) → s.loop.requests = r :: requests →
      others requests < others s.loop.requests := by
    intro requests r hr hrequests
    rw [hrequests]
    cases r with
    | wakeConnection token => exact absurd rfl (hr token)
    | _ => simp [others]
  have hfirst : ∀ {requests : List (Request Unit)} {r : Request Unit},
      (∀ token, r ≠ .wakeConnection token) → s.loop.requests = r :: requests →
      loop.requests = requests → left ids (s.afterLoop process a loop) < left ids s := by
    intro requests r hr hrequests hloop
    simp only [left, Prod.Lex.toLex_lt_toLex, afterLoop, hloop]
    exact Or.inl (hfewer hr hrequests)
  cases EventLoop.step_cases hstep with
  | polled hph => exact left_polled h hph hgo rfl rfl fun _ => rfl
  | handled hph =>
      refine left_lt (le_refl _) rfl (fun id => (wayOf_same rfl rfl rfl).le)
        (Or.inr (Or.inr ⟨le_refl _, fun id => endsOf_same rfl rfl ?_, Or.inr ?_⟩))
      · rw [reported_of_listed (by rfl)]
        exact Nat.zero_le _
      · simp [loopLeft, hph, placeLeft, afterLoop]
  | event hph => exact left_event' h hph rfl rfl rfl
  | @popped fresh hph =>
      have hfar : ∀ id, (s.afterLoop process (.popRequest fresh)
          { s.loop with phase := .polling }).far id = s.far id :=
        fun id => farAfter_popRequest process fresh fun hgone => hgone
      refine left_lt (le_refl _) (boundAfter_same fun _ => rfl)
        (fun id => le_of_eq (wayOf_same rfl (hfar id) rfl))
        (Or.inr (Or.inr ⟨le_refl _, fun id => endsOf_same rfl (hfar id) ?_, Or.inr ?_⟩))
      · exact Nat.zero_le _
      · simp [loopLeft, hph, placeLeft, afterLoop]
  | @woken fresh _ _ hph hrequests =>
      exact left_woken h hph hrequests rfl (boundAfter_same fun _ => EventLoop.enter_isSome ..)
        (funext fun id => farAfter_popRequest process fresh
          (connOf_enter _ _ _ EventLoop.starts_handleWake))
  | stopped hph hrequests => exact hfirst (fun _ h => by cases h) hrequests rfl
  | refused hph hrequests => exact hfirst (fun _ h => by cases h) hrequests rfl
  | bound hph hrequests => exact hfirst (fun _ h => by cases h) hrequests rfl
  | left hat hph =>
      exact left_conn h hat hgo hadmits rfl rfl rfl rfl rfl listed_next fun _ _ ht => ht
  | removed hat hph =>
      exact left_conn h hat hgo hadmits rfl rfl rfl rfl rfl listed_next
        fun _ _ ht => (Slab.of_remove ht).2
  | stayed hat => exact left_conn h hat hgo hadmits rfl rfl rfl rfl rfl rfl fun _ _ ht => ht
  | @caller id _ e _ he _ hconn =>
      refine left_caller h ?_ he hgo hconn rfl rfl rfl
      exact connOf_entry he ▸ hids id
  | pushedWake he howing =>
      exact left_pushWake h howing rfl rfl (by simp [others, afterLoop]) rfl rfl
  | lostWake he howing => exact left_pushWake h howing rfl rfl rfl rfl rfl
  | pushedRequest | lostRequest => cases hgo
  | rung hringing =>
      refine left_lt (le_refl _) rfl (fun id => (wayOf_same rfl rfl rfl).le)
        (Or.inr (Or.inr ⟨le_refl _, fun id => endsOf_same rfl rfl (le_refl _), Or.inr ?_⟩))
      simp only [loopLeft, afterLoop, Bool.toNat_true]
      omega

/-- Every step that goes on of itself brings the loop closer to rest. -/
theorem step_left [LawfulBincode Req] [LawfulBincode Resp] (h : s.Attentive)
    (hids : Covered ids s) {a : PolledAction Req E} (hgo : s.goesOn a = true)
    (hstep : s.step process a = some s') : left ids s' < left ids s := by
  cases a with
  | loop a =>
      simp only [step] at hstep
      split at hstep
      · obtain ⟨loop, hloop, rfl⟩ := Option.map_eq_some_iff.mp hstep
        exact left_loop h hids hgo ‹_› hloop
      · cases hstep
  | server id a => exact left_server h hgo hstep
  | roomUp id => exact left_rooms h (Or.inl rfl) hgo hstep
  | roomDown id => exact left_rooms h (Or.inr rfl) hgo hstep

/-! ## The calls of a run -/

def callsOf (s : PolledLoop S Req Resp) (id : ConnId) :
    CallId → Option (Call (Item Req) (Item Resp)) :=
  (connOf s.loop id).driver.handler.calls

/-- No call is new. -/
def NoneNew (calls calls' : CallId → Option (Call (Item Req) (Item Resp))) : Prop :=
  ∀ i, calls' i ≠ none → calls i ≠ none

omit [Bincode Req] [Bincode Resp] in
theorem NoneNew.of_eq {calls calls' : CallId → Option (Call (Item Req) (Item Resp))}
    (h : calls' = calls) : NoneNew calls calls' := fun _ hi => h ▸ hi

theorem loop_calls (h : s.Attentive) {a : LoopAction Unit Req} {loop : EventLoop Unit Req Resp}
    (hadmits : s.admits a = true) (hstep : s.loop.step bytePipe a = some loop)
    (hcall : ∀ id i m, a ≠ .caller id (.call i m)) (id : ConnId) :
    NoneNew (s.callsOf id) ((s.afterLoop process a loop).callsOf id) := by
  have hsteps : ∀ {b toks}, Steps s (s.afterLoop process a loop) id b toks →
      (∀ i m, b ≠ .other (.call i m)) →
      NoneNew (s.callsOf id) ((s.afterLoop process a loop).callsOf id) := by
    intro b toks hsteps hother
    have hlink := rpcStep_client (fun (_ : Unit) (server : S) _ => (.error "", server)) hsteps.step
    have hprogress := rpcStep_progress (fun _ _ heq => by cases heq; exact hother _ _ rfl) hlink
    intro i hi
    rcases hprogress.calls i with ⟨-, hnone⟩ | ⟨c, c', hc, -⟩
    · exact absurd hnone hi
    · change (s.link id).client.driver.handler.calls i ≠ none
      rw [hc]
      exact Option.some_ne_none _
  cases loop_befalls h hadmits hstep id with
  | nothing hconn => exact .of_eq (by rw [callsOf, callsOf, hconn])
  | started hdriver => exact .of_eq (by rw [callsOf, callsOf, hdriver])
  | closed hconn => exact .of_eq (by rw [callsOf, callsOf, hconn]; rfl)
  | own hown hother =>
      refine hsteps hown fun i m heq => ?_
      rw [heq] at hother
      cases hother
  | caller hown =>
      refine hsteps hown fun i m heq => ?_
      cases heq
      exact hcall _ _ _ rfl

omit [Bincode Req] [Bincode Resp] in
theorem Covers.noneNew {ids : List CallId}
    {calls calls' : CallId → Option (Call (Item Req) (Item Resp))} (hids : Covers ids calls)
    (h : NoneNew calls calls') : Covers ids calls' := fun i hi => hids i (h i hi)

/-- A step that is a matter of time is not a new call. -/
theorem goesOn_covered (h : s.Attentive) (hids : Covered ids s) {a : PolledAction Req E}
    (hgo : s.goesOn a = true) (hstep : s.step process a = some s') : Covered ids s' := by
  rcases step_loop hstep with ⟨b, loop, rfl, hadmits, hloop, rfl⟩ | ⟨hloop, -⟩
  · refine fun id => Covers.noneNew (hids id) (loop_calls h hadmits hloop ?_ id)
    rintro id i m rfl
    cases hgo
  · rwa [Covered, hloop]

/-- There are finitely many calls on each connection. -/
def FiniteCalls (s : PolledLoop S Req Resp) : Prop :=
  ∀ id, (connOf s.loop id).driver.handler.Finite

theorem step_finite (h : s.Attentive) (hfinite : s.FiniteCalls) {a : PolledAction Req E}
    (hstep : s.step process a = some s') : s'.FiniteCalls := by
  rcases step_loop hstep with ⟨b, loop, rfl, hadmits, hloop, rfl⟩ | ⟨hloop, -⟩
  · intro id
    cases loop_befalls h hadmits hloop id with
    | nothing hconn => exact hconn ▸ hfinite id
    | started hdriver => exact hdriver ▸ hfinite id
    | closed hconn => exact hconn ▸ (hfinite id).drop
    | own hsteps | caller hsteps =>
        exact clientOps_finite.handled (hfinite id) (step_handled hsteps.step)
  · rwa [FiniteCalls, hloop]

def AllReturned (s : PolledLoop S Req Resp) : Prop :=
  ∀ id i c, s.callsOf id i = some c → ∃ r, c.phase = .returned r

/-- Whatever has happened to a loop and to the servers of its connections, if no
more calls are made and no wake has been lost or is, then all calls return,
however the threads and the kernel go on. -/
theorem calls_return [LawfulBincode Req] [LawfulBincode Resp] [Nonempty E]
    (process : E → S → Item Req → Except String (Item Resp) × S) (server : ConnId → S)
    {as : List (PolledAction Req E)} {s : PolledLoop S Req Resp}
    (hfits : Lts.Within (step process) WakeFits (start server) as)
    (hrun : Lts.runs (step process) (start server) as = some s) :
    Lts.Inevitable (step process) (fun s a => s.goesOn a = true ∧ s.WakeFits a) AllReturned s := by
  have hstep : ∀ (s : PolledLoop S Req Resp) a s', s.Attentive ∧ s.FiniteCalls → s.WakeFits a →
      s.step process a = some s' → s'.Attentive ∧ s'.FiniteCalls :=
    fun _ _ _ h hfits hstep => ⟨step_attentive h.1 hfits hstep, step_finite h.1 h.2 hstep⟩
  obtain ⟨hs, hfinite⟩ := Lts.runs_within_invariant hstep
    ⟨attentive_start server, fun id => ⟨[], fun i hi => absurd rfl hi⟩⟩ hfits hrun
  choose ids hids using hfinite
  refine Lts.inevitable_of_measure (I := fun s => s.Attentive ∧ Covered ids s)
    (m := left ids) wellFounded_lt ?_ ?_ ?_ ⟨hs, hids⟩
  · exact fun s a s' h hgo hstep =>
      ⟨step_attentive h.1 hgo.2 hstep, goesOn_covered h.1 h.2 hgo.1 hstep⟩
  · exact fun s a s' h hgo hstep => step_left h.1 h.2 hgo.1 hstep
  · intro s h hopen
    simp only [AllReturned, not_forall, not_exists] at hopen
    obtain ⟨id, i, c, hc, hopen⟩ := hopen
    cases he : s.loop.entries id with
    | none =>
        have hnew : s.callsOf id i = none := by
          rw [callsOf, connOf, he]
          rfl
        rw [hnew] at hc
        cases hc
    | some e =>
        rw [callsOf, connOf_entry he] at hc
        obtain ⟨a, hgo, hfits, hsome⟩ := h.1.no_deadlock process he hc hopen
        obtain ⟨s', hs'⟩ := Option.isSome_iff_exists.mp hsome
        exact ⟨a, s', ⟨hgo, hfits⟩, hs'⟩

/-- The call waits, or is about to. -/
def isWaiting (s : PolledLoop S Req Resp) (id : ConnId) (i : CallId) : Bool :=
  (s.callsOf id i).any fun c =>
    match c.phase with
    | .waiting => true
    | _ => false

/-- Two connections: the server of one fails in the middle of the request of a
call that waits, and the wake of a call on the other is in the queue. -/
theorem calls_return_run : ∃ s : PolledLoop Unit Bool Bool,
    (s.far 0).server.phase = .removed ∧ s.isWaiting 0 0 = true ∧ s.isWaiting 1 0 = true ∧
      s.loop.requests = [.wakeConnection 1] ∧
      Lts.Inevitable (step fun _ _ m => (.ok m, ()))
        (fun s (a : PolledAction Bool Unit) => s.goesOn a = true ∧ s.WakeFits a) AllReturned s := by
  let process : Unit → Unit → Item Bool → Except String (Item Bool) × Unit :=
    fun _ _ m => (.ok m, ())
  let loopScript : List (LoopAction Unit Bool) :=
    EventLoop.bindScript 2 ++ EventLoop.callScript 0 0 ++ EventLoop.callScript 1 0 ++
      [.ring, .poll [], .nextEvent, .popRequest none, .conn [] (.flushItem .cloneProxy),
       .conn [] (.flushItem .cloneProxy), .conn [] (.sendMsg (.ok 5)),
       .conn [] (.sendMsg (.error .wouldBlock)), .conn [] (.finish true)]
  let script : List (PolledAction Bool Unit) := loopScript.map .loop ++
    [.server 0 (.event true), .server 0 (.recvMsg (.ok 3)), .server 0 (.processItem ()),
     .server 0 (.recvMsg (.error (.os 104)))]
  have hfits : Lts.Within (step process) WakeFits (start fun _ => ()) script := by decide +kernel
  have hrun : (Lts.runs (step process) (start fun _ => ()) script).map
      (fun s => ((s.far 0).server.phase, s.isWaiting 0 0, s.isWaiting 1 0, s.loop.requests)) =
      some (.removed, true, true, [.wakeConnection 1]) := by
    decide +kernel
  obtain ⟨s, hs, heq⟩ := Option.map_eq_some_iff.mp hrun
  simp only [Prod.mk.injEq] at heq
  obtain ⟨hgone, hfirst, hsecond, hrequests⟩ := heq
  exact ⟨s, hgone, hfirst, hsecond, hrequests, calls_return process (fun _ => ()) hfits hs⟩

end PolledLoop

end Audioipc

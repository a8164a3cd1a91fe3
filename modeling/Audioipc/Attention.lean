import Audioipc.PolledLoop
import Audioipc.Seats

/-!
# Nothing is forgotten

In a run of a `PolledLoop` in which no wake is lost, all its connections are
`Attended`. With `Seated`, and with what `Wakes` says of the requests, this
makes up `Attentive` (`step_attentive`).

A step of the loop is one of the connection it is at, or moves the loop on:
the poll hands over the edges it reports, an event or a wake hands its own to
the connection it enters, and the end of the loop removes all of them.
-/

namespace Audioipc

variable {S E Req Resp : Type} [Bincode Req] [AssociateHandleForMessage Req]
  [Bincode Resp] [AssociateHandleForMessage Resp]

namespace PolledLoop

def AttendedAt (s : PolledLoop S Req Resp) (id : ConnId) : Prop :=
  Attended (s.link id) (s.ready id) (s.far id).far

structure Attentive (s : PolledLoop S Req Resp) : Prop where
  woken : s.loop.Woken
  seated : s.loop.Seated
  attended : ∀ id, s.AttendedAt id
  owing : ∀ id i, (id, i) ∈ s.loop.owing → (s.loop.entries id).isSome = true
  bound : ∀ id, (s.loop.entries id).isSome = true → id ∈ s.bound

theorem attentive_start (server : ConnId → S) :
    (start server : PolledLoop S Req Resp).Attentive where
  woken := EventLoop.woken_new
  seated := EventLoop.seated_new
  attended id := attended_start (server id)
  owing _ _ h := absurd h List.not_mem_nil
  bound _ h := by cases h

variable {process : E → S → Item Req → Except String (Item Resp) × S}
  {s s' : PolledLoop S Req Resp} {id : ConnId}

omit [Bincode Req] [Bincode Resp] in
theorem connOf_congr {l l' : EventLoop Unit Req Resp} (h : l'.entries = l.entries) :
    connOf l' id = connOf l id := by
  rw [connOf, connOf, h]

omit [Bincode Req] [Bincode Resp] in
theorem connOf_entry {l : EventLoop Unit Req Resp} {e : Entry Unit Req Resp}
    (h : l.entries id = some e) : connOf l id = e.conn := by
  rw [connOf, h]

omit [Bincode Req] [Bincode Resp] in
theorem connOf_setConn {l l' : EventLoop Unit Req Resp} {id' : ConnId} {e : Entry Unit Req Resp}
    {conn : ClientConnection Unit Req Resp} (h : l'.entries = (l.setConn id e conn).entries) :
    connOf l' id' = if id' = id then conn else connOf l id' := by
  rw [connOf, h]
  by_cases hid : id' = id
  · subst hid
    simp [EventLoop.setConn]
  · simp [EventLoop.setConn, hid, connOf]

omit [Bincode Req] [Bincode Resp] in
theorem reported_of_listed {l : EventLoop Unit Req Resp} (h : l.phase.listed = []) :
    reported l id = [] := by
  rw [reported, h]
  rfl

omit [Bincode Req] [Bincode Resp] in
theorem reported_cons {l l' : EventLoop Unit Req Resp} {token : Token} {readable : Bool}
    {es : List (Token × Bool)} (h : l.phase.listed = (token, readable) :: es)
    (hslab : l'.slab = l.slab) (h' : l'.phase.listed = es) (id : ConnId) :
    reported l id = if l.slab token = some id then readable :: reported l' id
      else reported l' id := by
  rw [reported, reported, h, h', hslab, List.filter_cons]
  by_cases htoken : l.slab token = some id
  · simp [htoken]
  · simp [htoken]

omit [Bincode Req] [Bincode Resp] in
theorem ready_mono (hnear : (s'.far id).near = (s.far id).near)
    (hsub : reported s.loop id ⊆ reported s'.loop id) :
    ((s.ready id).readable = true → (s'.ready id).readable = true) ∧
    ((s.ready id).writable = true → (s'.ready id).writable = true) ∧
    ((s.ready id).full = true → (s'.ready id).full = true) := by
  simp only [ready, hnear, Bool.or_eq_true, List.contains_iff_mem, Bool.not_eq_true',
    List.isEmpty_eq_false_iff]
  refine ⟨Or.imp_right fun h => hsub h, Or.imp_right fun h hnil => h ?_, fun h => h⟩
  rw [hnil] at hsub
  exact List.eq_nil_of_subset_nil hsub

theorem AttendedAt.mono (h : s.AttendedAt id) {near : Readiness}
    (hconn : connOf s'.loop id = connOf s.loop id) (hfar : s'.far id = { s.far id with near })
    (hready : (connOf s.loop id).phase ≠ .removed →
      ((s.ready id).readable = true → (s'.ready id).readable = true) ∧
      ((s.ready id).writable = true → (s'.ready id).writable = true) ∧
      ((s.ready id).full = true → (s'.ready id).full = true)) : s'.AttendedAt id := by
  have hlink : s'.link id = s.link id := by rw [link, link, hconn, hfar]
  rw [AttendedAt, hlink, hfar]
  exact Attended.mono h hready

theorem AttendedAt.same (h : s.AttendedAt id) (hconn : connOf s'.loop id = connOf s.loop id)
    (hfar : s'.far id = s.far id) (hsub : reported s.loop id ⊆ reported s'.loop id) :
    s'.AttendedAt id :=
  h.mono hconn hfar fun _ => ready_mono (by rw [hfar]) hsub

/-- The poll reports what there is to report. -/
theorem Attentive.polled (h : s.Attentive) {es : List (Token × Bool)}
    (hph : s.loop.phase = .polling) (hadmits : s.admits (.poll es) = true) :
    (s.afterLoop process (.poll es)
      { s.loop with phase := .events es, waker := false }).AttendedAt id := by
  have hnone : reported s.loop id = [] := reported_of_listed (by rw [hph]; rfl)
  by_cases hany : (es.any fun e => s.loop.slab e.1 = some id) = true
  · refine (h.attended id).mono rfl (if_pos hany) fun _ => ⟨fun hreadable => ?_, fun _ => ?_, ?_⟩
    · have hnear : (s.far id).near.readable = true := by simpa [ready, hnone] using hreadable
      obtain ⟨⟨token, readable⟩, he, htoken⟩ := List.any_eq_true.mp hany
      have htoken' : s.loop.slab token = some id := by simpa using htoken
      have hrep := List.all_eq_true.mp hadmits _ he
      simp only [htoken', hnear, Bool.not_true, Bool.or_false] at hrep
      simp only [ready, reported, afterLoop, LoopPhase.listed, Bool.or_eq_true,
        List.contains_iff_mem, List.mem_map, List.mem_filter]
      exact Or.inr ⟨_, ⟨he, htoken⟩, hrep⟩
    · obtain ⟨e, he, htoken⟩ := List.any_eq_true.mp hany
      simp only [ready, reported, afterLoop, LoopPhase.listed, Bool.or_eq_true, Bool.not_eq_true',
        List.isEmpty_eq_false_iff]
      exact Or.inr (List.ne_nil_of_mem (List.mem_map_of_mem (List.mem_filter.mpr ⟨he, htoken⟩)))
    · simp only [ready, afterLoop, farAfter, if_pos hany]
      exact fun hfull => hfull
  · exact (h.attended id).same rfl (if_neg hany) (by rw [hnone]; exact List.nil_subset _)

variable [LawfulBincode Req] [LawfulBincode Resp]

omit [Bincode Req] [Bincode Resp] [LawfulBincode Req] [LawfulBincode Resp] in
/-- The loop goes on to the connection that has a token, if one has. -/
theorem enters {l : EventLoop Unit Req Resp} (hslabbed : l.Slabbed) {token : Token}
    {phase : ConnId → LoopPhase}
    {start : ClientConnection Unit Req Resp → ClientConnection Unit Req Resp}
    (hloop : s'.loop = l.enter token phase start) (hentries : l.entries = s.loop.entries)
    (hslab : l.slab = s.loop.slab) :
    (s.loop.slab token = none ∧ s'.loop = l) ∨
    ∃ id e, s.loop.slab token = some id ∧ s.loop.entries id = some e ∧
      connOf s'.loop id = start (connOf s.loop id) ∧ s'.loop.phase = phase id ∧
      s'.loop.requests = l.requests ∧ s'.loop.owing = l.owing ∧ s'.loop.slab = l.slab ∧
      ∀ id', id' ≠ id → connOf s'.loop id' = connOf s.loop id' := by
  rcases EventLoop.enter_cases hslabbed token phase start with
    ⟨hnone, heq⟩ | ⟨id, e, htoken, he, -, heq⟩ <;> rw [heq] at hloop
  · exact Or.inl ⟨hslab ▸ hnone, hloop⟩
  · have hset : ∀ id', connOf s'.loop id' = if id' = id then start e.conn else connOf l id' :=
      fun id' => connOf_setConn (e := e) (by rw [hloop])
    rw [hentries] at he
    rw [hslab] at htoken
    refine Or.inr ⟨id, e, htoken, he, ?_, by rw [hloop], by rw [hloop]; rfl, by rw [hloop]; rfl,
      by rw [hloop]; rfl, fun id' hne => ?_⟩
    · rw [hset, if_pos rfl, connOf_entry he]
    · rw [hset, if_neg hne, connOf_congr hentries]

omit [LawfulBincode Req] [LawfulBincode Resp] in
theorem AttendedAt.enter (h : s.AttendedAt id) {l : EventLoop Unit Req Resp} (hslabbed : l.Slabbed)
    {token : Token} {phase : ConnId → LoopPhase}
    {start : ClientConnection Unit Req Resp → ClientConnection Unit Req Resp}
    (hloop : s'.loop = l.enter token phase start) (hentries : l.entries = s.loop.entries)
    (hslab : l.slab = s.loop.slab) (hfar : s'.far id = s.far id)
    (hother : s.loop.slab token ≠ some id → reported s.loop id ⊆ reported s'.loop id)
    (hat : ∀ e, s.loop.slab token = some id → s.loop.entries id = some e →
      Attended { s.link id with client := start (s.link id).client } (s'.ready id)
        (s.far id).far) : s'.AttendedAt id := by
  rcases enters hslabbed hloop hentries hslab with
    ⟨hnone, heq⟩ | ⟨id', e, htoken, he, hconn, -, -, -, -, hothers⟩
  · exact h.same (connOf_congr (by rw [heq, hentries])) hfar (hother (by simp [hnone]))
  · by_cases hid : id = id'
    · subst hid
      have hlink : s'.link id = { s.link id with client := start (s.link id).client } := by
        rw [link, hconn, hfar]
        rfl
      rw [AttendedAt, hlink, hfar]
      exact hat e htoken he
    · exact h.same (hothers id hid) hfar (hother (by simpa [htoken] using Ne.symm hid))

omit [LawfulBincode Req] [LawfulBincode Resp] in
theorem Attentive.idle (h : s.Attentive) {token : Token} {e : Entry Unit Req Resp}
    (hcur : s.loop.phase.current = none) (htoken : s.loop.slab token = some id)
    (he : s.loop.entries id = some e) : (s.link id).client.phase = .idle := by
  change (connOf s.loop id).phase = .idle
  rw [connOf_entry he]
  exact h.seated.idle hcur he (h.seated.registered token id e htoken he)

theorem Attentive.event (h : s.Attentive) {token : Token} {readable : Bool}
    {es : List (Token × Bool)} (hph : s.loop.phase = .events ((token, readable) :: es))
    (hloop : s'.loop = { s.loop with phase := .events es }.enter token (.handlingEvent · es)
      (·.handleEvent readable)) (hfar : s'.far id = s.far id) : s'.AttendedAt id := by
  obtain ⟨hslab, hphase⟩ := EventLoop.enter_eq { s.loop with phase := .events es } token
    (.handlingEvent · es) (·.handleEvent readable)
  rw [← hloop] at hslab hphase
  have hcons := reported_cons (l := s.loop) (by rw [hph]; rfl) hslab
    (by rcases hphase with h | ⟨_, h⟩ <;> rw [h] <;> rfl) id
  refine (h.attended id).enter (h.woken.slabbed.leave (.events es) (by simp) rfl) hloop rfl rfl
    hfar (fun hne => ?_) fun e htoken he => ?_
  · rw [hcons, if_neg hne]
    exact List.Subset.refl _
  · refine Attended.event (h.attended id) (h.idle (by rw [hph]; rfl) htoken he)
      fun hevent hready => ?_
    subst hevent
    rw [ready, hcons, if_pos htoken] at hready
    simpa [ready, hfar] using hready

theorem Attentive.wake (h : s.Attentive) {token : Token} {requests : List (Request Unit)}
    (hph : s.loop.phase = .popping)
    (hloop : s'.loop = { s.loop with requests }.enter token .handlingWake (·.handleWake))
    (hfar : s'.far id = s.far id) : s'.AttendedAt id := by
  have hnone : reported s.loop id = [] := reported_of_listed (by rw [hph]; rfl)
  refine (h.attended id).enter (l := { s.loop with requests })
    (h.woken.slabbed.congr rfl rfl rfl) hloop rfl rfl hfar
    (fun _ => by rw [hnone]; exact List.nil_subset _) fun e htoken he => ?_
  exact (Attended.wake (h.attended id) (h.idle (by rw [hph]; rfl) htoken he)).mono fun _ =>
    ready_mono (by rw [hfar]) (by rw [hnone]; exact List.nil_subset _)

/-- All connections are removed. -/
theorem Attentive.stopped (h : s.Attentive) (hph : s.loop.phase = .popping)
    (hentries : s'.loop.entries id = (s.loop.entries id).map fun e =>
      { e with conn := e.conn.close clientOps })
    (hfar : s'.far id = { s.far id with
      far := (s.far id).far.peered (.shutdown : ConnAction (RpcAction (Item Req)))
        (connOf s.loop id).phase (connOf s'.loop id).phase }) : s'.AttendedAt id := by
  have hnone : reported s.loop id = [] := reported_of_listed (by rw [hph]; rfl)
  have hsub : reported s.loop id ⊆ reported s'.loop id := by
    rw [hnone]
    exact List.nil_subset _
  cases he : s.loop.entries id with
  | none =>
      have hconn : connOf s'.loop id = connOf s.loop id := by
        rw [connOf, connOf, hentries, he]
        rfl
      rw [hconn, Readiness.peered_same rfl fun h => h] at hfar
      exact (h.attended id).same hconn hfar hsub
  | some e =>
      have hconn : connOf s.loop id = e.conn := connOf_entry he
      have hconn' : connOf s'.loop id = (connOf s.loop id).close clientOps := by
        rw [hconn, connOf, hentries, he]
        rfl
      by_cases hremoved : e.conn.phase = .removed
      · -- its handler is dropped already
        have hdropped : e.conn.driver.handler.handler ≠ .live := by
          have := (h.attended id).dropped
          rw [link, hconn] at this
          exact this hremoved
        have hsame : (connOf s.loop id).close clientOps = connOf s.loop id := by
          rw [hconn]
          cases hc : e.conn
          rw [hc] at hremoved hdropped
          cases hremoved
          simp [Connection.close, clientOps, ClientRpc.drop, hdropped]
        rw [hsame] at hconn'
        rw [hconn', Readiness.peered_same rfl fun h => h] at hfar
        exact (h.attended id).same hconn' hfar hsub
      · have hidle := h.seated.idle (by rw [hph]; rfl) he hremoved
        have hstep : (s.link id).client.step bytePipe clientOps (s.link id).down .shutdown =
            some ((connOf s.loop id).close clientOps, [], (s.link id).down) := by
          simp only [link, hconn, Connection.step, hidle]
        have hclosed := Attended.clientStep (h.attended id) rfl hstep
        rw [List.append_nil] at hclosed
        have hlink : s'.link id =
            { s.link id with client := (connOf s.loop id).close clientOps } := by
          rw [link, hconn', hfar]
          rfl
        rw [AttendedAt, hlink, hfar, hconn']
        exact hclosed.mono fun hph' => absurd rfl hph'

omit [LawfulBincode Req] [LawfulBincode Resp] in
theorem Attentive.not_event (h : s.Attentive) {w : List Tok}
    {a : ConnAction (RpcAction (Item Req))} {e : Entry Unit Req Resp}
    {conn : ClientConnection Unit Req Resp} (hat : s.loop.AtConn bytePipe w a id e conn)
    (readable : Bool) : a ≠ .event readable := by
  rintro rfl
  have hidle := ((h.seated.current id e hat.entry).mp hat.current).1
  obtain ⟨_, hstep, -⟩ := Option.map_eq_some_iff.mp hat.step
  cases hph : e.conn.phase with
  | idle => exact hidle hph
  | _ => simp [Connection.step, hph] at hstep

/-- The client of one connection has taken a step, and nothing has happened to
the others. -/
structure Steps (s s' : PolledLoop S Req Resp) (id : ConnId) (a : ConnAction (RpcAction (Item Req)))
    (toks : List Tok) : Prop where
  step : (s.link id).client.step bytePipe clientOps (s.link id).down a =
    some ((s'.link id).client, toks, (s'.link id).down)
  link : s'.link id = ⟨(s'.link id).client, (s.link id).server, (s.link id).up ++ toks,
    (s'.link id).down⟩
  near : (s'.far id).near = (s.far id).near.after a
  far : (s'.far id).far =
    (s.far id).far.peered a (s.link id).client.phase (s'.link id).client.phase
  others : ∀ id', id' ≠ id → connOf s'.loop id' = connOf s.loop id' ∧ s'.far id' = s.far id'

omit [Bincode Req] [Bincode Resp] [LawfulBincode Req] [LawfulBincode Resp] in
theorem admits_conn {w : List Tok} {a : ConnAction (RpcAction (Item Req))}
    (hcur : s.loop.phase.current = some id) (h : s.admits (.conn w a) = true) :
    w = (s.far id).down ∧ (s.far id).near.admits (s.far id).down (s.far id).up
      (s.far id).server.phase a = true := by
  simp only [admits, hcur, Bool.and_eq_true, decide_eq_true_eq] at h
  obtain ⟨rfl, hnear⟩ := h
  exact ⟨rfl, hnear⟩

omit [LawfulBincode Req] [LawfulBincode Resp] in
/-- The connection that the loop is at receives from its own stream, and sends
to it. -/
theorem steps_conn {w : List Tok} {a : ConnAction (RpcAction (Item Req))}
    {e : Entry Unit Req Resp} {conn : ClientConnection Unit Req Resp}
    (hat : s.loop.AtConn bytePipe w a id e conn) (hadmits : s.admits (.conn w a) = true)
    (hentries : s'.loop.entries = (s.loop.setConn id e conn).entries)
    (hfar : s'.far = s.farAfter process s'.loop (.conn w a)) :
    ∃ toks, Steps s s' id a toks := by
  have hconn : connOf s.loop id = e.conn := connOf_entry hat.entry
  obtain ⟨rfl, -⟩ := admits_conn hat.current hadmits
  obtain ⟨⟨conn, toks, down⟩, hstep, rfl⟩ := Option.map_eq_some_iff.mp hat.step
  have hstep' : (s.link id).client.step bytePipe clientOps (s.link id).down a =
      some (conn, toks, down) := by
    rw [link, hconn]
    exact hstep
  have hlink := rpcStep_client process hstep'
  simp only [farAfter, hat.current] at hfar
  rw [hlink] at hfar
  dsimp only at hfar
  have hset : ∀ id', connOf s'.loop id' = if id' = id then conn else connOf s.loop id' :=
    fun id' => connOf_setConn (l := s.loop) hentries
  have hown : s'.link id = ⟨conn, (s.link id).server, (s.link id).up ++ toks, down⟩ := by
    rw [link, hset, if_pos rfl, hfar, Function.update_self]
  refine ⟨toks, by rw [hown]; exact hstep', by rw [hown], ?_, ?_, fun id' hne => ⟨?_, ?_⟩⟩
  · rw [hfar, Function.update_self]
  · rw [hown, hfar, Function.update_self]
    rfl
  · rw [hset, if_neg hne]
  · rw [hfar, Function.update_of_ne hne]

omit [LawfulBincode Req] [LawfulBincode Resp] in
theorem steps_caller {a : RpcAction (Item Req)} {e : Entry Unit Req Resp}
    {conn : ClientConnection Unit Req Resp} (he : s.loop.entries id = some e)
    (hstep : clientStep bytePipe e.conn ([], .other a) = some conn)
    (hentries : s'.loop.entries = (s.loop.setConn id e conn).entries) (hfar : s'.far = s.far) :
    Steps s s' id (.other a) [] := by
  have hconn : connOf s.loop id = e.conn := connOf_entry he
  have hph := (clientStep_other id hstep).1
  rw [clientStep_caller] at hstep
  have hset : ∀ id', connOf s'.loop id' = if id' = id then conn else connOf s.loop id' :=
    fun id' => connOf_setConn (l := s.loop) hentries
  have hown : s'.link id = { s.link id with client := conn } := by
    rw [link, hset, if_pos rfl, hfar]
    rfl
  refine ⟨?_, by rw [hown, List.append_nil], by rw [hfar]; rfl, ?_, fun id' hne => ⟨?_, ?_⟩⟩
  · rw [hown, link, hconn, Connection.step_other]
    obtain ⟨handler, hops, rfl⟩ := Option.map_eq_some_iff.mp hstep
    exact Option.map_eq_some_iff.mpr ⟨handler, hops, rfl⟩
  · have hsame : (s.link id).client.phase = conn.phase := by rw [hph, link, hconn]
    rw [hown, hfar, Readiness.peered_same rfl fun hgone => hsame.trans hgone]
  · rw [hset, if_neg hne]
  · rw [hfar]

theorem Attentive.steps (h : s.Attentive) {a : ConnAction (RpcAction (Item Req))} {id' : ConnId}
    {toks : List Tok} (hsteps : Steps s s' id' a toks)
    (hadmits : (s.far id').near.admits (s.link id').down (s.link id').up (s.link id').server.phase
      a = true) (hevent : ∀ readable, a ≠ .event readable)
    (hreported : ∀ id, (id = id' → (s'.link id').client.phase ≠ .removed) →
      reported s'.loop id = reported s.loop id) : s'.AttendedAt id := by
  by_cases hid : id = id'
  · subst hid
    have hown := Attended.clientStep (h.attended id)
      ((Readiness.admits_eq hevent _ _).trans hadmits) hsteps.step
    rw [AttendedAt, hsteps.link, hsteps.far]
    refine hown.mono fun hph => ?_
    -- its own step takes notice of nothing that is reported
    obtain ⟨blocked, hafter⟩ := Readiness.after_eq hevent
    simp only [ready, hsteps.near, hafter, hreported id fun _ => hph]
    exact ⟨fun hr => hr, fun hr => hr, fun hfull => hfull⟩
  · obtain ⟨hconn, hfar⟩ := hsteps.others id hid
    refine (h.attended id).same hconn hfar ?_
    rw [hreported id fun heq => absurd heq hid]
    exact List.Subset.refl _

theorem Attentive.conn (h : s.Attentive) {w : List Tok} {a : ConnAction (RpcAction (Item Req))}
    {id' : ConnId} {e : Entry Unit Req Resp} {conn : ClientConnection Unit Req Resp}
    (hat : s.loop.AtConn bytePipe w a id' e conn) (hadmits : s.admits (.conn w a) = true)
    (hentries : s'.loop.entries = (s.loop.setConn id' e conn).entries)
    (hfar : s'.far = s.farAfter process s'.loop (.conn w a))
    (hreported : ∀ id, (id = id' → conn.phase ≠ .removed) →
      reported s'.loop id = reported s.loop id) : s'.AttendedAt id := by
  obtain ⟨toks, hsteps⟩ := steps_conn hat hadmits hentries hfar
  have hset : connOf s'.loop id' = conn := (connOf_setConn hentries).trans (if_pos rfl)
  exact h.steps hsteps (admits_conn hat.current hadmits).2 (h.not_event hat) fun id hid =>
    hreported id fun heq => hset ▸ hid heq

omit [Bincode Req] [Bincode Resp] [LawfulBincode Req] [LawfulBincode Resp] in
theorem reported_congr {l l' : EventLoop Unit Req Resp} (hphase : l'.phase.listed = l.phase.listed)
    (hslab : l'.slab = l.slab) : reported l' id = reported l id := by
  rw [reported, reported, hphase, hslab]

omit [Bincode Req] [Bincode Resp] [LawfulBincode Req] [LawfulBincode Resp] in
theorem listed_next {ph : LoopPhase} : ph.next.listed = ph.listed := by
  cases ph <;> rfl

omit [Bincode Req] [Bincode Resp] [LawfulBincode Req] [LawfulBincode Resp] in
theorem reported_remove {l l' : EventLoop Unit Req Resp} {token : Token} {id' : ConnId}
    (hphase : l'.phase.listed = l.phase.listed)
    (hslab : l'.slab = Function.update l.slab token none) (htoken : l.slab token = some id')
    (hid : id ≠ id') : reported l' id = reported l id := by
  rw [reported, reported, hphase, hslab]
  congr 1
  refine List.filter_congr fun e _ => ?_
  by_cases he : e.1 = token
  · simp [he, htoken, Ne.symm hid]
  · simp [he]

variable (process) in
omit [LawfulBincode Req] [LawfulBincode Resp] in
theorem farAfter_popRequest (fresh : Option (ConnId × Token)) {loop : EventLoop Unit Req Resp}
    (h : (connOf loop id).phase = .removed → (connOf s.loop id).phase = .removed) :
    s.farAfter process loop (.popRequest fresh) id = s.far id := by
  simp only [farAfter, Readiness.peered_same (a := (.shutdown : ConnAction E)) rfl h]

omit [Bincode Req] [Bincode Resp] [LawfulBincode Req] [LawfulBincode Resp] in
theorem connOf_enter (l : EventLoop Unit Req Resp) (token : Token) (phase : ConnId → LoopPhase)
    {start : ClientConnection Unit Req Resp → ClientConnection Unit Req Resp}
    (hstart : EventLoop.Starts start)
    (h : (connOf (l.enter token phase start) id).phase = .removed) :
    (connOf l id).phase = .removed := by
  unfold EventLoop.enter at h
  split at h
  · exact h
  · split at h
    · exact h
    · rename_i id' _ _ e _
      have hset : connOf ({ l.setConn id' e (start e.conn) with phase := phase id' }) id =
          if id = id' then start e.conn else connOf l id := connOf_setConn (e := e) rfl
      rw [hset] at h
      split at h
      · have := hstart.phase e.conn
        rw [h] at this
        cases this
      · exact h

omit [Bincode Req] [Bincode Resp] [LawfulBincode Req] [LawfulBincode Resp] in
theorem connOf_bound {l : EventLoop Unit Req Resp} {id' : ConnId} {token : Token}
    (hid : l.entries id' = none) :
    connOf { l with
      entries := Function.update l.entries id' (some ⟨token, .new () .new⟩) } id = connOf l id := by
  by_cases h : id = id'
  · subst h
    simp [connOf, hid]
  · simp [connOf, h]

theorem loop_attended {a : LoopAction Unit Req} {loop : EventLoop Unit Req Resp} (h : s.Attentive)
    (hadmits : s.admits a = true) (hstep : s.loop.step bytePipe a = some loop) (id : ConnId) :
    (s.afterLoop process a loop).AttendedAt id := by
  cases EventLoop.step_cases hstep with
  | polled hph => exact h.polled hph hadmits
  | handled hph =>
      refine (h.attended id).same rfl rfl ?_
      rw [reported_of_listed (by rw [hph]; rfl)]
      exact List.nil_subset _
  | event hph => exact h.event hph rfl rfl
  | @popped fresh hph =>
      refine (h.attended id).same rfl (farAfter_popRequest process fresh fun hgone => hgone) ?_
      rw [reported_of_listed (by rw [hph]; rfl)]
      exact List.nil_subset _
  | refused hph =>
      refine (h.attended id).same rfl (farAfter_popRequest process none fun hgone => hgone) ?_
      rw [reported_of_listed (by rw [hph]; rfl)]
      exact List.nil_subset _
  | @woken fresh _ _ hph =>
      exact h.wake hph rfl (farAfter_popRequest process fresh
        (connOf_enter _ _ _ EventLoop.starts_handleWake))
  | stopped hph => exact h.stopped hph rfl rfl
  | @bound _ _ id' token hph _ hid =>
      refine (h.attended id).same (connOf_bound hid)
        (farAfter_popRequest process (some (id', token)) fun hgone => connOf_bound hid ▸ hgone) ?_
      rw [reported_of_listed (by rw [hph]; rfl)]
      exact List.nil_subset _
  | left hat => exact h.conn hat hadmits rfl rfl fun id' _ => reported_congr listed_next rfl
  | @removed _ _ id' e _ hat hph =>
      have htoken : s.loop.slab e.token = some id' := by
        obtain ⟨e', he', htoken⟩ := h.woken.slabbed.current id' hat.current
        rw [hat.entry] at he'
        cases he'
        exact htoken
      exact h.conn hat hadmits rfl rfl fun id hid =>
        reported_remove listed_next rfl htoken fun heq => hid heq hph
  | stayed hat => exact h.conn hat hadmits rfl rfl fun id' _ => rfl
  | caller he _ hconn =>
      exact h.steps (steps_caller he hconn rfl rfl) rfl nofun fun _ _ => rfl
  | pushedWake | lostWake | pushedRequest | lostRequest | rung =>
      exact (h.attended id).same rfl rfl (List.Subset.refl _)

omit [LawfulBincode Req] [LawfulBincode Resp] in
theorem Attentive.link_step (h : s.Attentive) {id' : ConnId} {f : FarEnd S Req Resp}
    (hloop : s'.loop = s.loop) (hfar : s'.far = Function.update s.far id' f)
    (hattended : Attended ⟨connOf s.loop id', f.server, f.up, f.down⟩
      { s.ready id' with
        readable := f.near.readable || (reported s.loop id').contains true
        writable := f.near.writable || !(reported s.loop id').isEmpty
        full := f.near.full } f.far) : s'.AttendedAt id := by
  by_cases hid : id = id'
  · subst hid
    rw [AttendedAt, link, ready, hfar, hloop, Function.update_self]
    exact hattended
  · refine (h.attended id).same (connOf_congr (by rw [hloop]))
      (by rw [hfar, Function.update_of_ne hid]) ?_
    rw [hloop]
    exact List.Subset.refl _

theorem server_attended {a : ConnAction E} {id' : ConnId} (h : s.Attentive)
    (hstep : s.step process (.server id' a) = some s') (id : ConnId) : s'.AttendedAt id := by
  simp only [step] at hstep
  split at hstep
  · rename_i hadmits
    obtain ⟨k, hlink, rfl⟩ := Option.map_eq_some_iff.mp hstep
    have hserver := Attended.serverStep (h.attended id') hadmits hlink
    have hclient : k.client = connOf s.loop id' := by
      obtain ⟨_, -, rfl⟩ := Option.map_eq_some_iff.mp hlink
      rfl
    refine h.link_step rfl rfl ?_
    rw [← hclient]
    refine hserver.mono fun _ => ?_
    simp only [Readiness.peered, ready, Bool.or_eq_true]
    exact ⟨fun hr => by tauto, fun hw => hw, fun hfull => hfull⟩
  · cases hstep

theorem step_attended {a : PolledAction Req E} (h : s.Attentive)
    (hstep : s.step process a = some s') (id : ConnId) : s'.AttendedAt id := by
  cases a with
  | loop a =>
      simp only [step] at hstep
      split at hstep
      · obtain ⟨loop, hloop, rfl⟩ := Option.map_eq_some_iff.mp hstep
        exact loop_attended h ‹_› hloop id
      · cases hstep
  | server id' a => exact server_attended h hstep id
  | roomUp id' =>
      simp only [step] at hstep
      split at hstep <;> cases hstep
      refine h.link_step rfl rfl ?_
      exact (Attended.roomUp (h.attended id')).mono fun _ =>
        ⟨fun hr => hr, fun _ => by simp [Readiness.room], fun hfull => hfull⟩
  | roomDown id' =>
      simp only [step] at hstep
      split at hstep <;> cases hstep
      exact h.link_step rfl rfl (Attended.roomDown (h.attended id'))

omit [LawfulBincode Req] [LawfulBincode Resp] in
theorem bound_loop {a : LoopAction Unit Req} {loop : EventLoop Unit Req Resp}
    (h : ∀ id, (s.loop.entries id).isSome = true → id ∈ s.bound)
    (hstep : s.loop.step bytePipe a = some loop) (hid : (loop.entries id).isSome = true) :
    id ∈ s.boundAfter loop a := by
  cases hold : s.loop.entries id with
  | some e =>
      have hmem := h id (by rw [hold]; rfl)
      unfold boundAfter
      split
      · split
        · exact List.mem_cons_of_mem _ hmem
        · exact hmem
      · exact hmem
  | none =>
      obtain ⟨-, token, rfl⟩ := (EventLoop.step_isSome hstep id).resolve_left
        (by rw [hid, hold]; simp)
      have hnew : ((s.loop.entries id).isNone && (loop.entries id).isSome) = true := by
        rw [hold, hid]
        rfl
      simp only [boundAfter, hnew, if_true]
      exact List.mem_cons_self ..

omit [LawfulBincode Req] [LawfulBincode Resp] in
theorem owing_loop {a : LoopAction Unit Req} {loop : EventLoop Unit Req Resp}
    (h : ∀ id i, (id, i) ∈ s.loop.owing → (s.loop.entries id).isSome = true)
    (hstep : s.loop.step bytePipe a = some loop) (id : ConnId) (i : CallId)
    (hi : (id, i) ∈ loop.owing) : (loop.entries id).isSome = true :=
  EventLoop.step_entries hstep <| (EventLoop.step_owing hstep hi).elim (h id i) fun h => h

/-- What a step of the loop does to one connection. -/
inductive Befalls (s s' : PolledLoop S Req Resp) (id : ConnId) : LoopAction Unit Req → Prop
  | nothing {a : LoopAction Unit Req} (hconn : connOf s'.loop id = connOf s.loop id) :
      Befalls s s' id a
  | started {a : LoopAction Unit Req}
      (hdriver : (connOf s'.loop id).driver = (connOf s.loop id).driver) : Befalls s s' id a
  | closed {a : LoopAction Unit Req}
      (hconn : connOf s'.loop id = (connOf s.loop id).close clientOps) : Befalls s s' id a
  | own {w toks : List Tok} {a : ConnAction (RpcAction (Item Req))} (hsteps : Steps s s' id a toks)
      (hown : a.isOther = false) : Befalls s s' id (.conn w a)
  | caller {a : RpcAction (Item Req)} (hsteps : Steps s s' id (.other a) []) :
      Befalls s s' id (.caller id a)

omit [LawfulBincode Req] [LawfulBincode Resp] in
theorem befalls_enter {a : LoopAction Unit Req} {l : EventLoop Unit Req Resp} (hslabbed : l.Slabbed)
    {token : Token} {phase : ConnId → LoopPhase}
    {start : ClientConnection Unit Req Resp → ClientConnection Unit Req Resp}
    (hstart : EventLoop.Starts start) (hloop : s'.loop = l.enter token phase start)
    (hentries : l.entries = s.loop.entries) (hslab : l.slab = s.loop.slab) : Befalls s s' id a := by
  rcases enters hslabbed hloop hentries hslab with
    ⟨-, heq⟩ | ⟨id', e, -, -, hconn, -, -, -, -, hothers⟩
  · exact .nothing (connOf_congr (by rw [heq, hentries]))
  · by_cases hid : id = id'
    · exact .started (by rw [hid, hconn, hstart.driver])
    · exact .nothing (hothers id hid)

omit [LawfulBincode Req] [LawfulBincode Resp] in
theorem Steps.befalls {a : LoopAction Unit Req} {b : ConnAction (RpcAction (Item Req))}
    {toks : List Tok} {id' : ConnId} (hsteps : Steps s s' id' b toks)
    (h : id = id' → Befalls s s' id a) : Befalls s s' id a := by
  by_cases hid : id = id'
  · exact h hid
  · exact .nothing (hsteps.others id hid).1

omit [LawfulBincode Req] [LawfulBincode Resp] in
theorem loop_befalls {a : LoopAction Unit Req} {loop : EventLoop Unit Req Resp} (h : s.Attentive)
    (hadmits : s.admits a = true) (hstep : s.loop.step bytePipe a = some loop) (id : ConnId) :
    Befalls s (s.afterLoop process a loop) id a := by
  cases EventLoop.step_cases hstep with
  | polled | handled | popped | refused | pushedWake | lostWake | pushedRequest | lostRequest
  | rung => exact .nothing rfl
  | @event _ readable es =>
      exact befalls_enter (h.woken.slabbed.leave (.events es) (by simp) rfl)
        (EventLoop.starts_handleEvent readable) rfl rfl rfl
  | @woken _ _ requests =>
      exact befalls_enter (l := { s.loop with requests }) (h.woken.slabbed.congr rfl rfl rfl)
        EventLoop.starts_handleWake rfl rfl rfl
  | stopped =>
      cases he : s.loop.entries id with
      | none => exact .nothing (by simp [connOf, afterLoop, he])
      | some e => exact .closed (by simp [connOf, afterLoop, he])
  | bound _ _ hid => exact .nothing (connOf_bound hid)
  | left hat | removed hat | stayed hat =>
      refine Exists.elim (steps_conn hat hadmits rfl rfl) fun _ hsteps => hsteps.befalls ?_
      rintro rfl
      exact .own hsteps hat.own
  | @caller id' _ e conn he _ hconn =>
      by_cases hid : id = id'
      · subst hid
        exact .caller (steps_caller he hconn rfl rfl)
      · have hset : connOf (s.loop.setConn id' e conn) id =
            if id = id' then conn else connOf s.loop id := connOf_setConn rfl
        exact .nothing (hset.trans (if_neg hid))

omit [LawfulBincode Req] [LawfulBincode Resp] in
/-- A step is one of the loop, or leaves the loop as it is. -/
theorem step_loop {a : PolledAction Req E} (hstep : s.step process a = some s') :
    (∃ b loop, a = .loop b ∧ s.admits b = true ∧ s.loop.step bytePipe b = some loop ∧
      s' = s.afterLoop process b loop) ∨ (s'.loop = s.loop ∧ s'.bound = s.bound) := by
  cases a with
  | loop b =>
      simp only [step] at hstep
      split at hstep
      · obtain ⟨loop, hloop, rfl⟩ := Option.map_eq_some_iff.mp hstep
        exact Or.inl ⟨b, loop, rfl, ‹_›, hloop, rfl⟩
      · cases hstep
  | server id a =>
      simp only [step] at hstep
      split at hstep
      · obtain ⟨k, -, rfl⟩ := Option.map_eq_some_iff.mp hstep
        exact Or.inr ⟨rfl, rfl⟩
      · cases hstep
  | roomUp | roomDown =>
      simp only [step] at hstep
      split at hstep <;> cases hstep
      exact Or.inr ⟨rfl, rfl⟩

/-- In a run in which no wake is lost, nothing is forgotten. -/
theorem step_attentive {a : PolledAction Req E} (h : s.Attentive) (hfits : s.WakeFits a)
    (hstep : s.step process a = some s') : s'.Attentive := by
  have hattended := step_attended h hstep
  rcases step_loop hstep with ⟨b, loop, rfl, -, hloop, rfl⟩ | ⟨hloop, hbound⟩
  · exact ⟨EventLoop.step_woken h.woken hfits hloop,
      EventLoop.step_seated h.woken.slabbed h.seated hloop, hattended,
      owing_loop h.owing hloop, fun _ => bound_loop h.bound hloop⟩
  · exact ⟨hloop ▸ h.woken, hloop ▸ h.seated, hattended, hloop ▸ h.owing,
      hloop ▸ hbound ▸ h.bound⟩

end PolledLoop

end Audioipc

import Audioipc.AtomicRpc
import Audioipc.Termination

/-!
# What the drop of a stream waits for

`stream.rs`'s `ClientStream::drop` sends `StreamDestroy` and then waits on a
channel whose other end is in the `CallbackServer`: it returns when that has
been dropped. It must not return earlier, as callbacks use what the
application frees next, and it must return.

What it waits for comes about in the other process. The server drops the
slot of the stream, and with it the proxies of the callback connection. The
last proxy wakes the event loop, which finds no proxies (`Retiring`) and
removes the connection; the client's event loop finds the end of the stream,
removes its end too, and drops the `CallbackServer`. This comes about once
the wake is in the queue of the loop, whatever calls are under way and
whatever has failed (`stream_drop_returns`).
-/

namespace Audioipc

variable {S E Req Resp : Type} [Bincode Req] [AssociateHandleForMessage Req]
  [Bincode Resp] [AssociateHandleForMessage Resp]

namespace PolledLoop

variable {process : E → S → Item Req → Except String (Item Resp) × S}
  {s s' : PolledLoop S Req Resp} {id : ConnId}

def proxiesOf (s : PolledLoop S Req Resp) (id : ConnId) : Nat :=
  (connOf s.loop id).driver.handler.proxies

/-! ## No proxy comes back -/

omit [Bincode Req] [Bincode Resp] in
/-- The loop finds nothing to send on a connection only while it has proxies. -/
theorem produce_proxies {h h' : ClientRpc (Item Req) (Item Resp)}
    (hproduce : h.produce = some (.ok none, h')) : ¬ h'.proxies = 0 := by
  unfold ClientRpc.produce at hproduce
  split at hproduce
  · split at hproduce
    · cases hproduce
    · split at hproduce <;> cases hproduce
      assumption
  · cases hproduce

theorem steps_proxies {a : ConnAction (RpcAction (Item Req))} {toks : List Tok}
    (hsteps : Steps s s' id a toks) (h : s.proxiesOf id = 0) : s'.proxiesOf id = 0 := by
  change (s'.link id).client.driver.handler.proxies = 0
  have h : (s.link id).client.driver.handler.proxies = 0 := h
  cases hother : a.isOther with
  | true =>
      cases a with
      | other b =>
          have hstep := hsteps.step
          rw [Connection.step_other] at hstep
          obtain ⟨handler, hops, heq⟩ := Option.map_eq_some_iff.mp hstep
          have hhandler : (s'.link id).client.driver.handler = handler := by
            rw [← (Prod.mk.inj heq).1]
          rw [hhandler]
          cases ClientRpc.other_cases hops with
          | cloneProxy hproxies | dropProxy hproxies => omega
          | _ => exact h
      | _ => cases hother
  | false =>
      have hlink :=
        rpcStep_client (fun (_ : Unit) (server : S) _ => (.error "", server)) hsteps.step
      have hsame := client_own (R := fun h h' => h'.proxies = h.proxies) (fun _ => rfl)
        (fun h m r h' hs => by
          rcases (ClientRpc.consume_cases hs).2 with ⟨-, -, -, rfl⟩ | ⟨i, rest, -, hcases⟩
          · rfl
          · rcases hcases with ⟨_, _, _, -, -, rfl⟩ | ⟨-, _, -, rfl⟩ <;> rfl)
        (fun h r h' hs => by
          rcases (ClientRpc.produce_cases hs).2 with ⟨_, _, _, -, -, rfl⟩ | ⟨-, -, rfl⟩ |
            ⟨_, -, rfl⟩ <;> rfl)
        (fun _ _ h => h) hother hlink
      exact hsame.trans h

variable (process) in
theorem loop_proxies (hs : s.Attentive) {a : LoopAction Unit Req} {loop : EventLoop Unit Req Resp}
    (hadmits : s.admits a = true) (hstep : s.loop.step bytePipe a = some loop)
    (h : s.proxiesOf id = 0) : (s.afterLoop process a loop).proxiesOf id = 0 := by
  cases loop_befalls hs hadmits hstep id with
  | nothing hconn => rw [proxiesOf, hconn]; exact h
  | started hdriver => rw [proxiesOf, hdriver]; exact h
  | closed hconn => rw [proxiesOf, hconn]; exact h
  | own hsteps | caller hsteps => exact steps_proxies hsteps h

/-! ## The loop looks -/

/-- The loop is about to look at a connection, or has removed it. -/
def Summoned (l : EventLoop Unit Req Resp) (id : ConnId) (e : Entry Unit Req Resp) : Prop :=
  e.conn.phase ≠ .removed → .wakeConnection e.token ∈ l.requests ∨
    (l.phase.current = some id ∧ e.conn.phase.beforeDrained = true)

omit [Bincode Req] [Bincode Resp] in
theorem Summoned.waiting {l : EventLoop Unit Req Resp} {e : Entry Unit Req Resp}
    (h : Summoned l id e) (hcur : l.phase.current ≠ some id) (hup : e.conn.phase ≠ .removed) :
    .wakeConnection e.token ∈ l.requests :=
  (h hup).resolve_right fun hat => hcur hat.1

/-- The loop leaves a connection only after it has looked. -/
theorem Summoned.own [LawfulBincode Resp] {l l' : EventLoop Unit Req Resp} {w : List Tok}
    {a : ConnAction (RpcAction (Item Req))} {e : Entry Unit Req Resp}
    {conn : ClientConnection Unit Req Resp} (h : Summoned l id e)
    (hat : l.AtConn bytePipe w a id e conn) (hrequests : l'.requests = l.requests)
    (hphase : conn.phase.beforeDrained = true → l'.phase = l.phase)
    (hproxies : conn.driver.handler.proxies = 0) : Summoned l' id { e with conn } := by
  intro hup
  have hup : conn.phase ≠ .removed := hup
  obtain ⟨⟨conn, toks, down⟩, hstep, rfl⟩ := Option.map_eq_some_iff.mp hat.step
  have hgoes := step_goes hstep
  rcases h fun hold => hup (hgoes.stays hold) with hmem | ⟨hcur, hold⟩
  · exact Or.inl (hrequests ▸ hmem)
  · cases hlate : conn.phase.beforeDrained with
    | true => exact Or.inr ⟨by rw [hphase hlate, hcur], rfl⟩
    | false =>
        have := (hgoes.drained (fun h => h.proxies = 0) (fun _ _ _ => produce_proxies) hat.own hup
          hproxies hlate).1
        rw [hold] at this
        cases this

theorem Summoned.stepAt [LawfulBincode Resp] {l l' : EventLoop Unit Req Resp}
    {e : Entry Unit Req Resp} (h : Summoned l id e) (he : l.entries id = some e) {w : List Tok}
    {a : ConnAction (RpcAction (Item Req))} {id' : ConnId} {e' : Entry Unit Req Resp}
    {conn : ClientConnection Unit Req Resp} (hat : l.AtConn bytePipe w a id' e' conn)
    (hentries : l'.entries = (l.setConn id' e' conn).entries)
    (hrequests : l'.requests = l.requests)
    (hphase : conn.phase.beforeDrained = true → l'.phase = l.phase)
    (hproxies : (connOf l' id).driver.handler.proxies = 0) :
    ∃ e', l'.entries id = some e' ∧ Summoned l' id e' := by
  by_cases hid : id = id'
  · subst hid
    have hnew : l'.entries id = some { e' with conn } := by
      rw [hentries]
      exact Function.update_self ..
    cases he.symm.trans hat.entry
    rw [connOf_entry hnew] at hproxies
    exact ⟨_, hnew, h.own hat hrequests hphase hproxies⟩
  · have hcur : l.phase.current ≠ some id := by
      rw [hat.current]
      exact fun heq => hid (Option.some.inj heq).symm
    refine ⟨e, ?_, fun hup => Or.inl (hrequests ▸ h.waiting hcur hup)⟩
    rw [hentries]
    exact (Function.update_of_ne hid ..).trans he

omit [Bincode Req] [Bincode Resp] in
/-- The loop goes on to the connection, or to another one. -/
theorem summoned_enter {l l' : EventLoop Unit Req Resp} {e : Entry Unit Req Resp} {token : Token}
    {phase : ConnId → LoopPhase}
    {start : ClientConnection Unit Req Resp → ClientConnection Unit Req Resp}
    (hslabbed : l.Slabbed) (he : l.entries id = some e) (hstart : EventLoop.Starts start)
    (hphase : ∀ id, (phase id).current = some id) (hl' : l' = l.enter token phase start)
    (hother : l.slab token ≠ some id → e.conn.phase ≠ .removed →
      .wakeConnection e.token ∈ l.requests) :
    ∃ e', l'.entries id = some e' ∧ Summoned l' id e' := by
  rcases EventLoop.enter_cases hslabbed token phase start with
    ⟨hnone, heq⟩ | ⟨id', e', htoken, he', -, heq⟩ <;> rw [hl', heq]
  · exact ⟨e, he, fun hup => Or.inl (hother (by simp [hnone]) hup)⟩
  · by_cases hid : id = id'
    · subst hid
      exact ⟨{ e' with conn := start e'.conn }, Function.update_self ..,
        fun _ => Or.inr ⟨hphase id, hstart.phase e'.conn⟩⟩
    · refine ⟨e, (Function.update_of_ne hid ..).trans he, fun hup => Or.inl ?_⟩
      exact hother (by simpa [htoken] using Ne.symm hid) hup

theorem loop_summoned [LawfulBincode Resp] (hs : s.Attentive) {a : LoopAction Unit Req}
    {loop : EventLoop Unit Req Resp} (hadmits : s.admits a = true)
    (hstep : s.loop.step bytePipe a = some loop) (hproxies : s.proxiesOf id = 0)
    {e : Entry Unit Req Resp} (he : s.loop.entries id = some e) (h : Summoned s.loop id e) :
    ∃ e', loop.entries id = some e' ∧ Summoned loop id e' := by
  have hproxies' : (connOf loop id).driver.handler.proxies = 0 :=
    loop_proxies (fun (_ : Unit) server _ => (.error "", server)) hs hadmits hstep
      hproxies
  have hrest : ∀ {r : Request Unit} {requests}, s.loop.phase = .popping →
      s.loop.requests = r :: requests → e.conn.phase ≠ .removed →
      r = .wakeConnection e.token ∨ .wakeConnection e.token ∈ requests := by
    intro r requests hph hrequests hup
    have := h.waiting (by simp [hph, LoopPhase.current]) hup
    rw [hrequests] at this
    exact (List.mem_cons.mp this).imp_left Eq.symm
  cases EventLoop.step_cases hstep with
  | polled hph | handled hph =>
      exact ⟨e, he, fun hup => Or.inl (h.waiting (by simp [hph, LoopPhase.current]) hup)⟩
  | popped hph hrequests =>
      refine ⟨e, he, fun hup => ?_⟩
      have := h.waiting (by simp [hph, LoopPhase.current]) hup
      rw [hrequests] at this
      cases this
  | refused hph hrequests =>
      exact ⟨e, he, fun hup => Or.inl ((hrest hph hrequests hup).resolve_left (by simp))⟩
  | stopped => exact ⟨_, Option.map_eq_some_iff.mpr ⟨e, he, rfl⟩, fun hup => absurd rfl hup⟩
  | @bound _ _ id' _ hph hrequests hid =>
      have hne : id ≠ id' := by
        rintro rfl
        rw [hid] at he
        cases he
      exact ⟨e, (Function.update_of_ne hne ..).trans he,
        fun hup => Or.inl ((hrest hph hrequests hup).resolve_left (by simp))⟩
  | @event _ readable es hph =>
      exact summoned_enter (hs.woken.slabbed.leave (.events es) (by simp) rfl) he
        (EventLoop.starts_handleEvent readable) (fun _ => rfl) rfl
        fun _ hup => h.waiting (by simp [hph, LoopPhase.current]) hup
  | @woken _ token requests hph hrequests =>
      refine summoned_enter (l := { s.loop with requests }) (hs.woken.slabbed.congr rfl rfl rfl) he
        EventLoop.starts_handleWake (fun _ => rfl) rfl fun hne hup => ?_
      refine (hrest hph hrequests hup).resolve_left fun heq => hne ?_
      -- the wake is that of the connection
      cases heq
      exact (hs.woken.slabbed.live id e he ((hs.at_entry he).rpc.clientLive hup)).1
  | left hat hph | removed hat hph =>
      exact h.stepAt he hat rfl rfl (fun hlate => by rw [hph] at hlate; cases hlate) hproxies'
  | stayed hat => exact h.stepAt he hat rfl rfl (fun _ => rfl) hproxies'
  | @caller id' _ e' conn he' _ hconn =>
      by_cases hid : id = id'
      · subst hid
        cases he.symm.trans he'
        have hph := (clientStep_other id hconn).1
        refine ⟨_, Function.update_self .., fun hup => (h (hph ▸ hup)).imp_right fun hat => ?_⟩
        exact ⟨hat.1, hph ▸ hat.2⟩
      · exact ⟨e, (Function.update_of_ne hid ..).trans he, h⟩
  | pushedWake | pushedRequest =>
      exact ⟨e, he, fun hup => (h hup).imp_left fun hmem => List.mem_append_left _ hmem⟩
  | lostWake | lostRequest | rung => exact ⟨e, he, h⟩

/-- There are no proxies, and the event loop will look, if it has not removed
the connection. -/
structure Retiring (s : PolledLoop S Req Resp) (id : ConnId) : Prop where
  proxies : s.proxiesOf id = 0
  summoned : ∃ e, s.loop.entries id = some e ∧ Summoned s.loop id e

theorem step_retiring [LawfulBincode Resp] (hs : s.Attentive) (h : s.Retiring id)
    {a : PolledAction Req E} (hstep : s.step process a = some s') : s'.Retiring id := by
  obtain ⟨e, he, hsummoned⟩ := h.summoned
  rcases step_loop hstep with ⟨b, loop, rfl, hadmits, hloop, rfl⟩ | ⟨hloop, -⟩
  · exact ⟨loop_proxies process hs hadmits hloop h.proxies,
      loop_summoned hs hadmits hloop h.proxies he hsummoned⟩
  · have hproxies : s'.proxiesOf id = s.proxiesOf id := by rw [proxiesOf, proxiesOf, hloop]
    exact ⟨hproxies.trans h.proxies, hloop ▸ h.summoned⟩

variable (process) in
/-- Some step is only a matter of time while the server of a connection
without proxies is up. -/
theorem Retiring.goes_on [Nonempty E] (h : s.Retiring id) (hs : s.Attentive)
    (hup : (s.far id).server.phase ≠ .removed) : ∃ a : PolledAction Req E,
      s.goesOn a = true ∧ s.WakeFits a ∧ (s.step process a).isSome = true := by
  by_contra hnone
  have hrest : s.AtRest process := by
    intro a hgoes hfits
    by_contra hne
    exact hnone ⟨a, hgoes, hfits, Option.isSome_iff_ne_none.mpr hne⟩
  obtain ⟨e, he, hsummoned⟩ := h.summoned
  obtain ⟨hidle, hreadable, -⟩ := hrest.server_idle hs he hup
  have hremoved : e.conn.phase = .removed := by
    by_contra hremoved
    have hmem := hsummoned.waiting (by rw [hrest.current hs]; simp) hremoved
    rcases hrest.place hs with hph | hstopped
    · rw [(hrest.requests hs hph).2] at hmem
      cases hmem
    · have hlive := (hs.at_entry he).rpc.clientLive hremoved
      have := (hs.woken.slabbed.live id e he hlive).1
      rw [hs.woken.slabbed.stopped hstopped] at this
      cases this
  -- the server has the end of the stream still to come
  have := ((hs.at_entry he).server hup).ended hremoved
  simp [hreadable, hidle, Phase.receiving, Phase.ending] at this

/-! ## The other end -/

section Server

variable {c c' : Connection Unit Req Resp (ServerHandler S Req Resp)}

omit [Bincode Req] [Bincode Resp] in
theorem handled_dropped (hd : c.driver.handler.dropped = true)
    (h : Handled (serverOps process) c c') : c'.driver.handler.dropped = true ∧
      c'.driver.handler.processed = c.driver.handler.processed := by
  have hconsume : ∀ {e m x}, (serverOps process).consume e c.driver.handler m ≠ some x := by
    intro e m x hops
    simp [serverOps, hd] at hops
  have hproduce : ∀ {e x}, (serverOps process).produce e c.driver.handler ≠ some x := by
    intro e x hops
    simp [serverOps, hd] at hops
  cases h with
  | nothing hh => rw [hh]; exact ⟨hd, rfl⟩
  | dropped hh => rw [hh]; exact ⟨rfl, rfl⟩
  | other e h hops => cases hops
  | consumed e m h hops | rejected e m err h hops | panicked e m msg h hops =>
      exact absurd hops hconsume
  | produced e m h hops | lost e m h hops | drained e h hops | refused e err h hops =>
      exact absurd hops hproduce

omit [Bincode Req] [Bincode Resp] in
/-- The loop drops the handler of a connection that it removes. -/
theorem handled_removed (hremoved : c.phase = .removed → c.driver.handler.dropped = true)
    (h : Handled (serverOps process) c c') (hph : c'.phase = .removed) :
    c'.driver.handler.dropped = true := by
  have hold : c.phase = .removed → c'.driver.handler.dropped = true :=
    fun hph => (handled_dropped (hremoved hph) h).1
  cases h with
  | nothing _ _ _ hphase | other _ _ _ _ _ _ hphase | consumed _ _ _ _ _ _ _ hphase
  | produced _ _ _ _ _ _ _ hphase | drained _ _ _ _ _ _ hphase => exact hold (hphase.mp hph)
  | dropped hh | rejected _ _ _ _ _ hh | panicked _ _ _ _ _ hh | lost _ _ _ _ hh
  | refused _ _ _ _ hh => rw [hh]; rfl

end Server

variable (process) in
theorem farAfter_conn (loop : EventLoop Unit Req Resp) (w : List Tok)
    (a : ConnAction (RpcAction (Item Req))) : s.farAfter process loop (.conn w a) = s.far ∨
      ∃ id k near far, rpcStep process (s.link id) (.client a) = some k ∧
        s.farAfter process loop (.conn w a) =
          Function.update s.far id ⟨k.server, k.up, k.down, near, far⟩ := by
  simp only [farAfter]
  split
  · exact Or.inl rfl
  · split
    · exact Or.inl rfl
    · exact Or.inr ⟨_, _, _, _, ‹_›, rfl⟩

theorem step_server {a : PolledAction Req E} (hstep : s.step process a = some s') (id : ConnId) :
    Handled (serverOps process) (s.far id).server (s'.far id).server ∨
      (s'.far id).server = (s.far id).server := by
  have hlink : ∀ {id' : ConnId} {b : LinkAction (RpcAction (Item Req)) E} {k} {near far},
      rpcStep process (s.link id') b = some k →
      s'.far = Function.update s.far id' ⟨k.server, k.up, k.down, near, far⟩ →
      Handled (serverOps process) (s.far id).server (s'.far id).server ∨
        (s'.far id).server = (s.far id).server := by
    intro id' b k near far hk hfar
    rw [hfar]
    by_cases hid : id = id'
    · subst hid
      rw [Function.update_self]
      exact (Link.step_handled hk).elim (fun h => Or.inr h.2) fun h => Or.inl h.1
    · exact Or.inr (by rw [Function.update_of_ne hid])
  have hroom : ∀ {id' : ConnId} {near far},
      s'.far = Function.update s.far id' { s.far id' with near, far } →
      (s'.far id).server = (s.far id).server := by
    intro id' near far hfar
    rw [hfar]
    by_cases hid : id = id'
    · subst hid
      rw [Function.update_self]
    · rw [Function.update_of_ne hid]
  cases a with
  | loop a =>
      simp only [step] at hstep
      split at hstep
      · obtain ⟨loop, -, rfl⟩ := Option.map_eq_some_iff.mp hstep
        cases a with
        | conn w a =>
            rcases farAfter_conn process (s := s) loop w a with
              hsame | ⟨id', k, near, far, hk, hfar⟩
            · exact Or.inr (by rw [afterLoop, hsame])
            · exact hlink hk hfar
        | poll es =>
            refine Or.inr ?_
            simp only [afterLoop, farAfter]
            split <;> rfl
        | _ => exact Or.inr rfl
      · cases hstep
  | server id' a =>
      simp only [step] at hstep
      split at hstep
      · obtain ⟨k, hk, rfl⟩ := Option.map_eq_some_iff.mp hstep
        exact hlink hk rfl
      · cases hstep
  | roomUp id' | roomDown id' =>
      simp only [step] at hstep
      split at hstep <;> cases hstep
      exact Or.inr (hroom rfl)

/-- The handlers of the servers that are removed have been dropped. -/
def ServersDropped (s : PolledLoop S Req Resp) : Prop :=
  ∀ id, (s.far id).server.phase = .removed → (s.far id).server.driver.handler.dropped = true

theorem step_serversDropped (h : s.ServersDropped) {a : PolledAction Req E}
    (hstep : s.step process a = some s') : s'.ServersDropped := by
  intro id
  rcases step_server hstep id with hhandled | hsame
  · exact handled_removed (h id) hhandled
  · rw [hsame]
    exact h id

/-- A server that is dropped processes nothing more. -/
theorem run_silent {as : List (PolledAction Req E)} (hrun : Lts.runs (step process) s as = some s')
    (hdropped : (s.far id).server.driver.handler.dropped = true) :
    (s'.far id).server.driver.handler.processed = (s.far id).server.driver.handler.processed := by
  have hstep : ∀ (t : PolledLoop S Req Resp) (a : PolledAction Req E) t',
      ((t.far id).server.driver.handler.dropped = true ∧
        (t.far id).server.driver.handler.processed =
          (s.far id).server.driver.handler.processed) → t.step process a = some t' →
      (t'.far id).server.driver.handler.dropped = true ∧
        (t'.far id).server.driver.handler.processed =
          (s.far id).server.driver.handler.processed := by
    intro t a t' ht hstep
    rcases step_server hstep id with hhandled | hsame
    · obtain ⟨hd, hprocessed⟩ := handled_dropped ht.1 hhandled
      exact ⟨hd, hprocessed.trans ht.2⟩
    · rw [hsame]
      exact ht
  exact (Lts.runs_invariant hstep ⟨hdropped, rfl⟩ hrun).2

/-- Once the last proxy of a connection has been dropped and its wake is in the
queue of the loop, the connection is removed and then its server dropped,
whatever has happened to the loop and its connections and however the threads
and the kernel go on, and no request is processed after that. -/
theorem stream_drop_returns [LawfulBincode Req] [LawfulBincode Resp] [Nonempty E]
    (process : E → S → Item Req → Except String (Item Resp) × S) (server : ConnId → S)
    {as : List (PolledAction Req E)} {s : PolledLoop S Req Resp}
    (hfits : Lts.Within (step process) WakeFits (start server) as)
    (hrun : Lts.runs (step process) (start server) as = some s) {e : Entry Unit Req Resp}
    (he : s.loop.entries id = some e) (hproxies : e.conn.driver.handler.proxies = 0)
    (hwake : .wakeConnection e.token ∈ s.loop.requests) :
    Lts.Inevitable (step process) (fun s a => s.goesOn a = true ∧ s.WakeFits a)
      (fun s => (s.far id).server.driver.handler.dropped = true ∧
        ∀ (bs : List (PolledAction Req E)) s', Lts.runs (step process) s bs = some s' →
          (s'.far id).server.driver.handler.processed =
            (s.far id).server.driver.handler.processed) s := by
  have hstep : ∀ (s : PolledLoop S Req Resp) a s',
      s.Attentive ∧ s.FiniteCalls ∧ s.ServersDropped → s.WakeFits a →
      s.step process a = some s' → s'.Attentive ∧ s'.FiniteCalls ∧ s'.ServersDropped :=
    fun _ _ _ h hfits hstep => ⟨step_attentive h.1 hfits hstep, step_finite h.1 h.2.1 hstep,
      step_serversDropped h.2.2 hstep⟩
  obtain ⟨hs, hfinite, hdropped⟩ := Lts.runs_within_invariant hstep
    ⟨attentive_start server, fun id => ⟨[], fun i hi => absurd rfl hi⟩, fun _ h => by cases h⟩
    hfits hrun
  choose ids hids using hfinite
  have hretiring : s.Retiring id :=
    ⟨by rw [proxiesOf, connOf_entry he, hproxies], e, he, fun _ => Or.inl hwake⟩
  refine Lts.inevitable_of_measure
    (I := fun s => s.Attentive ∧ Covered ids s ∧ s.ServersDropped ∧ s.Retiring id)
    (m := left ids) wellFounded_lt ?_ ?_ ?_ ⟨hs, hids, hdropped, hretiring⟩
  · exact fun s a s' h hgo hstep =>
      ⟨step_attentive h.1 hgo.2 hstep, goesOn_covered h.1 h.2.1 hgo.1 hstep,
        step_serversDropped h.2.2.1 hstep, step_retiring h.1 h.2.2.2 hstep⟩
  · exact fun s a s' h hgo hstep => step_left h.1 h.2.1 hgo.1 hstep
  · intro s h hopen
    have hup : (s.far id).server.phase ≠ .removed := fun hgone =>
      hopen ⟨h.2.2.1 id hgone, fun bs s' hrun => run_silent hrun (h.2.2.1 id hgone)⟩
    obtain ⟨a, hgo, hfits, hsome⟩ := h.2.2.2.goes_on process h.1 hup
    obtain ⟨s', hs'⟩ := Option.isSome_iff_exists.mp hsome
    exact ⟨a, s', ⟨hgo, hfits⟩, hs'⟩

/-- The last proxy of a connection is dropped and wakes the loop while the
server has the request of a call that has not returned. -/
theorem stream_drop_returns_run : ∃ (s : PolledLoop Unit Bool Bool) (e : Entry Unit Bool Bool),
    s.loop.entries 0 = some e ∧ e.conn.driver.handler.proxies = 0 ∧
      s.isWaiting 0 0 = true ∧ (s.far 0).server.driver.handler.processed.length = 1 ∧
      (s.far 0).server.driver.handler.dropped = false ∧
      Lts.Inevitable (step fun _ _ m => (.ok m, ()))
        (fun s (a : PolledAction Bool Unit) => s.goesOn a = true ∧ s.WakeFits a)
        (fun s => (s.far 0).server.driver.handler.dropped = true ∧
          ∀ (bs : List (PolledAction Bool Unit)) s',
            Lts.runs (step fun _ _ m => (.ok m, ())) s bs = some s' →
            (s'.far 0).server.driver.handler.processed =
              (s.far 0).server.driver.handler.processed) s := by
  let process : Unit → Unit → Item Bool → Except String (Item Bool) × Unit :=
    fun _ _ m => (.ok m, ())
  let loopScript : List (LoopAction Unit Bool) :=
    EventLoop.bindScript 1 ++ EventLoop.callScript 0 0 ++
      [.ring, .poll [], .nextEvent, .popRequest none, .conn [] (.flushItem .cloneProxy),
       .conn [] (.flushItem .cloneProxy), .conn [] (.sendMsg (.ok 13)), .conn [] (.finish true)]
  let script : List (PolledAction Bool Unit) := loopScript.map .loop ++
    [.server 0 (.event true), .server 0 (.recvMsg (.ok 13)), .server 0 (.processItem ()),
     .loop (.caller 0 .dropProxy), .loop (.pushRequest (.wakeConnection 0))]
  have hfits : Lts.Within (step process) WakeFits (start fun _ => ()) script := by decide +kernel
  have hrun : (Lts.runs (step process) (start fun _ => ()) script).any (fun s =>
      (s.loop.entries 0).any (fun e => decide (e.conn.driver.handler.proxies = 0) &&
        decide (.wakeConnection e.token ∈ s.loop.requests)) && s.isWaiting 0 0 &&
      decide ((s.far 0).server.driver.handler.processed.length = 1) &&
      !(s.far 0).server.driver.handler.dropped) = true := by
    decide +kernel
  obtain ⟨s, hs, hstate⟩ := (Option.any_eq_true _ _).mp hrun
  simp only [Bool.and_eq_true, decide_eq_true_eq, Bool.not_eq_true'] at hstate
  obtain ⟨⟨⟨hentry, hwaiting⟩, hprocessed⟩, hup⟩ := hstate
  obtain ⟨e, he, hlast⟩ := (Option.any_eq_true _ _).mp hentry
  simp only [Bool.and_eq_true, decide_eq_true_eq] at hlast
  exact ⟨s, e, he, hlast.1, hwaiting, hprocessed, hup,
    stream_drop_returns process (fun _ => ()) hfits hs he hlast.1 hlast.2⟩

end PolledLoop

end Audioipc

import Mathlib.Algebra.Order.BigOperators.Group.List
import Mathlib.Algebra.Order.Group.Nat
import Mathlib.Algebra.Order.Monoid.Prod
import Mathlib.Data.Prod.Lex
import Audioipc.Progress

/-!
# What a loop has left to do

The steps that go on of themselves bring a `PolledLoop` closer to rest, by a
measure that follows the messages on their way. In this order it counts

- the requests to add a connection or to stop;
- of all connections, the ends that are up; what the calls and the drop of the
  handler have left to do, with the wakes they owe and the requests that are
  queued or in flight; the bytes between the client's outbound buffer and the
  server's codec; the responses that the server has not sent; and the bytes
  between the server's outbound buffer and the client's codec (`Way`);
- the wakes in the queue of the loop;
- where the threads are with each connection, and the events that they have
  yet to handle;
- where the loop thread is.

A request becomes bytes, the bytes a response, and that bytes again, so
every quantity grows only in a step that reduces one above it. The room that
the kernel makes counts as long as bytes are on the stream: a send finds no
room only while there are some.
-/

namespace Audioipc

variable {S E Req Resp : Type} [Bincode Req] [AssociateHandleForMessage Req]
  [Bincode Resp] [AssociateHandleForMessage Resp]

/-! ## The measure -/

def Phase.left : Phase → Nat
  | .process => 5
  | .recv => 4
  | .flush _ => 3
  | .send _ => 2
  | .blocked _ => 1
  | .idle | .removed => 0

/-- What the calls in `ids` and the handler have left to do, with the wakes
that they owe. -/
def ClientRpc.left {α β : Type} (s : ClientRpc α β) (ids : List CallId) (owed : Nat) : Nat :=
  10 * ((ids.map (callLeft s.calls)).sum + owed) + 2 * s.queue.length +
    s.inFlight.length + s.handler.left

/-- What an end has left to do, apart from moving messages. `v` is the stream
to its peer. -/
def Readiness.left (r : Readiness) (ph : Phase) (v : List Tok) : Nat :=
  ph.left + 10 * (r.readable.toNat + r.writable.toNat) +
    20 * (r.full || !(bytesOf v).isEmpty).toNat

/-- The way of the bytes from an outbound buffer to a codec. -/
def bytesLeft (outbound : ConnectionBuffer) (w : List Tok) (unread : Bytes) : Nat :=
  3 * outbound.buf.length + 2 * (bytesOf w).length + unread.length

def Phase.up : Phase → Nat
  | .removed => 0
  | _ => 1

/-! ## The calls and the handler -/

namespace ClientRpc

variable {α β : Type} {s s' : ClientRpc α β} {ids : List CallId} {owed : Nat}

theorem left_consume {response : β}
    (hs : s.consume response = some (.ok (.ok ()), s')) :
    s'.left ids owed < s.left ids owed := by
  rcases (consume_cases hs).2 with ⟨e, -, hr, -⟩ | ⟨i, inFlight, hf, h⟩
  · cases hr
  · rcases h with ⟨request, phase, item, hc, -, rfl⟩ | ⟨-, msg, hr, -⟩
    · have hcalls : callLeft (s.setCall i ⟨request, phase, some response, false⟩).calls =
          callLeft s.calls := by
        funext j
        by_cases hij : j = i
        · subst hij
          simp [callLeft, setCall, hc]
        · simp [callLeft, setCall, hij]
      simp only [left, hcalls, hf, List.length_cons]
      simp only [setCall]
      omega
    · cases hr

theorem left_produce {request : α} (hs : s.produce = some (.ok (some request), s')) :
    s'.left ids owed < s.left ids owed := by
  rcases (produce_cases hs).2 with ⟨i, request, queue, -, hq, rfl⟩ | ⟨hr, -⟩ | ⟨e, hr, -⟩
  · simp only [left, hq, List.length_cons, List.length_append, List.length_nil]
    omega
  · cases hr
  · cases hr

theorem eq_of_produce_none (hs : s.produce = some (.ok none, s')) : s' = s := by
  rcases (produce_cases hs).2 with ⟨i, request, queue, hr, -⟩ | ⟨-, -, rfl⟩ | ⟨e, hr, -⟩
  · cases hr
  · rfl
  · cases hr

theorem left_setCall {i : CallId} {c c' : Call α β} {owed' : Nat}
    {queue : List (CallId × α)} (hids : Covers ids s.calls) (hc : s.calls i = some c)
    (hlt : c'.phase.left < c.phase.left)
    (hless : 10 * owed' + 2 * queue.length + 10 * c'.phase.left <
      10 * owed + 2 * s.queue.length + 10 * c.phase.left)
    (hcalls : s'.calls = Function.update s.calls i (some c')) (hqueue : s'.queue = queue)
    (hinFlight : s'.inFlight = s.inFlight) (hhandler : s'.handler = s.handler) :
    s'.left ids owed' < s.left ids owed := by
  have hi : i ∈ ids := hids i (by rw [hc]; exact Option.some_ne_none _)
  have hsum := sum_callLeft_update hc (Nat.le_of_lt hlt) hi
  simp only [left, hcalls, hqueue, hinFlight, hhandler]
  omega

end ClientRpc

/-! ## One end -/

section Nearer

variable {In Out H E : Type} [Bincode In] [AssociateHandleForMessage In] [Bincode Out]
  [AssociateHandleForMessage Out] {ops : HandlerOps In Out H E} {c c' : Connection Unit In Out H}
  {r : Readiness} {w w' v toks : List Tok} {peer : Phase} {a : ConnAction E}

/-- What a step of a loop thread that goes on of itself brings nearer. -/
inductive Nearer (ops : HandlerOps In Out H E) (c c' : Connection Unit In Out H) (r : Readiness)
    (w w' v toks : List Tok) (a : ConnAction E) : Prop
  | consumed (e : E) (m : Item In)
      (hconsume : ops.consume e c.driver.handler m = some (.ok (.ok ()), c'.driver.handler))
      (hunread : c'.unread.length < c.unread.length) (hout : c'.outbound = c.outbound)
      (hw : w' = w) (htoks : toks = [])
  | produced (e : E) (m : Item Out)
      (hproduce : ops.produce e c.driver.handler = some (.ok (some m), c'.driver.handler))
      (hunread : c'.unread = c.unread) (hw : w' = w) (htoks : toks = [])
  | sent (hdriver : c'.driver.handler = c.driver.handler) (hunread : c'.unread = c.unread)
      (hw : w' = w) (hout : 3 * c'.outbound.buf.length + 2 * (bytesOf toks).length <
        3 * c.outbound.buf.length)
  | received (hdriver : c'.driver.handler = c.driver.handler) (hout : c'.outbound = c.outbound)
      (htoks : toks = []) (hin : 2 * (bytesOf w').length + c'.unread.length <
        2 * (bytesOf w).length + c.unread.length)
  | moved (hdriver : c'.driver.handler = c.driver.handler ∨
        ∃ e, ops.produce e c.driver.handler = some (.ok none, c'.driver.handler))
      (hout : c'.outbound = c.outbound)
      (htoks : toks = []) (hw : (bytesOf w').length = (bytesOf w).length)
      (hunread : c'.unread.length = c.unread.length) (hsends : Readiness.sends a = false)
      (hleft : (r.after a).left c'.phase v < r.left c.phase v)

theorem left_eq (r : Readiness) (ph : Phase) (v : List Tok) :
    r.left ph v = ph.left + r.left .idle v := by
  simp only [Readiness.left, show Phase.left .idle = 0 from rfl]
  omega

theorem left_phase {ph ph' : Phase} (h : ph'.left < ph.left) : r.left ph' v < r.left ph v := by
  rw [left_eq r ph, left_eq r ph']
  omega

theorem left_after_event (readable : Bool) (h : (r.readable || r.writable) = true) :
    (r.after (.event readable : ConnAction E)).left .idle v + 10 ≤ r.left .idle v := by
  have hbits : 0 < r.readable.toNat + r.writable.toNat := by
    cases hr : r.readable with
    | true => simp
    | false => simp [(by simpa [hr] using h : r.writable = true)]
  simp only [Readiness.left, Readiness.after, Bool.toNat_false]
  omega

theorem left_event {readable : Bool} (h : (r.readable || r.writable) = true) :
    (r.after (.event readable : ConnAction E)).left (if readable then .recv else .flush false) v <
      r.left .idle v := by
  have hphase : Phase.left (if readable then .recv else .flush false) ≤ 4 := by
    cases readable <;> decide
  have := left_after_event (E := E) (v := v) readable h
  rw [left_eq]
  omega

omit [Bincode Out] in
theorem Goes.nearer (h : Goes ops c c' w w' toks a) (hph' : c'.phase ≠ .removed)
    (ha : a.isOther = false) (hgoes : r.goesOn peer a = true)
    (hadmits : r.admits w v peer a = true) : Nearer ops c c' r w w' v toks a := by
  cases h with
  | removed _ hremoved => exact absurd hremoved hph'
  | event readable hidle hw htoks hc =>
      subst hc
      refine .moved (Or.inl rfl) rfl htoks (by rw [hw]) rfl rfl ?_
      rw [hidle]
      exact left_event hgoes
  | wake => cases hgoes
  | received n frag hrecv hw htoks hfrag hdriver hunread hout hph =>
      have hlen := congrArg (fun w => (bytesOf w).length) hw
      have hlen' := congrArg List.length hunread
      simp only [bytesOf_append, List.length_append] at hlen hlen'
      cases n with
      | zero =>
          refine .moved (Or.inl (by rw [hdriver])) hout htoks (by omega) (by omega) rfl ?_
          rw [hph, hrecv]
          exact left_phase (by simp [Phase.left])
      | succ n => exact .received (by rw [hdriver]) hout htoks (by omega)
  | receivedNone e hrecv hw htoks he hc =>
      subst hc
      have hblock : e = .wouldBlock := by
        cases e <;> first | rfl | cases hgoes
      subst hblock
      refine .moved (Or.inl rfl) rfl htoks (by rw [hw]) rfl rfl ?_
      rw [hrecv]
      exact left_phase (by simp [Phase.left])
  | consumed e m hproc hw htoks hconsume hunread hout hph =>
      exact .consumed e m hconsume hunread hout hw htoks
  | processed e hproc hw htoks hhandler hwhole hunread hout hph =>
      refine .moved (Or.inl hhandler) hout htoks (by rw [hw]) hunread rfl ?_
      rw [hph, hproc]
      exact left_phase (by simp [Phase.left])
  | produced e m done hflush hw htoks hproduce hunread hph =>
      exact .produced e m hproduce hunread hw htoks
  | flushed e done hflush hw htoks hproduce hunread hout hph =>
      refine .moved (Or.inr ⟨e, hproduce⟩) hout htoks (by rw [hw]) (by rw [hunread]) rfl ?_
      rw [hph, hflush]
      exact left_phase (by simp [Phase.left])
  | sent n done hsend hw hn htoks hdriver hin hout hph =>
      refine .sent (by rw [hdriver]) (by rw [Connection.unread, Connection.unread, hdriver, hin])
        hw ?_
      rw [hout, htoks, bytesOf_segment]
      simp only [ConnectionBuffer.sent, List.length_drop, List.length_take]
      omega
  | sentNone e done hsend hw htoks he hdriver hin hout hph =>
      have hblock : e = .wouldBlock := by
        cases e with
        | wouldBlock => rfl
        | interrupted => simp [Readiness.goesOn] at hgoes
        | _ => cases he
      subst hblock
      have hstream : bytesOf v ≠ [] := by
        have : bytesOf v ≠ [] ∧ peer ≠ .removed := by
          simpa [Readiness.admits, maySend] using hadmits
        exact this.1
      refine .moved (Or.inl (by rw [hdriver])) hout htoks (by rw [hw])
        (by rw [Connection.unread, Connection.unread, hdriver, hin]) rfl ?_
      have hafter : (r.after (.sendMsg (.error .wouldBlock) : ConnAction E)).left .idle v =
          r.left .idle v := by
        have hempty : (bytesOf v).isEmpty = false := by simpa using hstream
        simp [Readiness.left, Readiness.after, hempty]
      rw [hph, hsend, left_eq, hafter, left_eq r (.send done)]
      simp [Phase.left]
  | finished done hfinish hw htoks hdone hc =>
      subst hc
      refine .moved (Or.inl rfl) rfl htoks (by rw [hw]) rfl rfl (left_phase ?_)
      rcases hfinish with hblocked | ⟨hsend, -⟩
      · simp [hblocked, Phase.left]
      · simp [hsend, Phase.left]
  | other => cases ha

end Nearer

namespace PolledLoop

variable {process : E → S → Item Req → Except String (Item Resp) × S}
  {s s' : PolledLoop S Req Resp} {id : ConnId} {ids : List CallId}

theorem up_le {ph ph' : Phase} (h : ph = .removed → ph' = .removed) : ph'.up ≤ ph.up := by
  cases ph <;> cases ph' <;> simp_all [Phase.up]

theorem up_removed {ph : Phase} (h : ph ≠ .removed) :
    Phase.up .removed < ph.up := by
  cases ph <;> simp_all [Phase.up]

theorem left_stream {r : Readiness} {ph : Phase} {v v' : List Tok}
    (h : (bytesOf v').length = (bytesOf v).length) : r.left ph v' = r.left ph v := by
  have hempty : (bytesOf v').isEmpty = (bytesOf v).isEmpty := by
    rw [Bool.eq_iff_iff, List.isEmpty_iff_length_eq_zero, List.isEmpty_iff_length_eq_zero, h]
  rw [Readiness.left, Readiness.left, hempty]

/-- The kernel makes room. -/
theorem left_room {r : Readiness} {p : Phase} {v : List Tok} (hfull : r.full = true)
    (hv : (bytesOf v).isEmpty = true) : r.room.left p v < r.left p v := by
  simp only [Readiness.left, Readiness.room, hfull, hv, Bool.not_true, Bool.or_false,
    Bool.toNat_true, Bool.toNat_false]
  omega

omit [Bincode Req] [Bincode Resp] in
theorem length_of_produce {h h' : ServerHandler S Req Resp} {e : E} {m : Item Resp}
    (hs : (serverOps process).produce e h = some (.ok (some m), h')) :
    h'.inFlight.length < h.inFlight.length := by
  simp only [serverOps] at hs
  split at hs <;> cases hs
  rename_i hf
  simp [hf]

omit [Bincode Req] [Bincode Resp] in
theorem eq_of_produce_none {h h' : ServerHandler S Req Resp} {e : E}
    (hs : (serverOps process).produce e h = some (.ok none, h')) : h' = h := by
  simp only [serverOps] at hs
  split at hs <;> cases hs
  rfl

omit [Bincode Req] [Bincode Resp] in
/-- Every step of a caller, and of the drop of the handler, pays for the wake
that it leaves to be pushed. -/
theorem left_other {h h' : ClientRpc (Item Req) (Item Resp)} {a : RpcAction (Item Req)}
    (id : ConnId) (owed : Nat) (conn : ClientConnection Unit Req Resp) (hids : Covers ids h.calls)
    (ha : ClientRpc.goesOn a = true) (hs : h.other a = some h') (hconn : conn.driver.handler = h') :
    h'.left ids (owed + (EventLoop.owed conn id a).length) < h.left ids owed := by
  cases ClientRpc.other_cases hs with
  | cloneProxy | dropProxy | call => cases ha
  | upgraded hc | gone hc | finished hc | failed hc =>
      exact ClientRpc.left_setCall hids hc (by simp [CallPhase.left])
        (by simp [CallPhase.left, EventLoop.owed, ClientRpc.setCall]) rfl rfl rfl rfl
  | full hc =>
      exact ClientRpc.left_setCall hids hc (by simp [CallPhase.left])
        (by simp [CallPhase.left, EventLoop.owed, hconn, ClientRpc.setCall]) rfl rfl rfl rfl
  | accepted hc =>
      refine ClientRpc.left_setCall hids hc (by simp [CallPhase.left]) ?_ rfl rfl rfl rfl
      simp only [CallPhase.left, EventLoop.owed, hconn, ClientRpc.setCall, Function.update_self,
        List.length_append, List.length_cons, List.length_nil]
      omega
  | @released i request ok item writer hc =>
      have hleft : CallPhase.left (if ClientRpc.alive { h with holders := h.holders.erase i }
          then ClientRpc.afterPush ok else .draining ok : CallPhase (Item Resp)) ≤ 3 := by
        split <;> cases ok <;> simp [CallPhase.left, ClientRpc.afterPush]
      refine ClientRpc.left_setCall hids hc (Nat.lt_of_le_of_lt hleft (by simp [CallPhase.left])) ?_
        rfl rfl rfl rfl
      simp only [CallPhase.left, EventLoop.owed, ClientRpc.setCall, List.length_nil] at hleft ⊢
      omega
  | @drained i request ok item writer hc hqueue =>
      have hleft : (ClientRpc.afterPush ok : CallPhase (Item Resp)).left = 1 := by cases ok <;> rfl
      have hbefore : (CallPhase.draining ok : CallPhase (Item Resp)).left = 3 := rfl
      refine ClientRpc.left_setCall hids hc (by simp only [hleft, hbefore]; omega) ?_
        rfl rfl rfl rfl
      simp only [hleft, hbefore, EventLoop.owed, ClientRpc.setCall, List.length_nil]
      omega
  | drainedOne hc hqueue | drainedQueue hc hqueue =>
      simp only [ClientRpc.left, EventLoop.owed, callLeft_dropWriter, hqueue, List.length_cons,
        List.length_nil]
      simp only [ClientRpc.dropCompletionWriter]
      omega
  | droppedWriter hhandler hinFlight =>
      simp only [ClientRpc.left, EventLoop.owed, callLeft_dropWriter, hinFlight, List.length_cons,
        List.length_nil]
      simp only [ClientRpc.dropCompletionWriter]
      omega
  | droppedQueue hhandler hinFlight =>
      have hleft : HandlerPhase.left (if h.holders.isEmpty then .draining else .dropped) < 2 := by
        split <;> simp [HandlerPhase.left]
      have hbefore : h.handler.left = 2 := by rw [hhandler]; rfl
      simp only [ClientRpc.left, EventLoop.owed, hbefore, List.length_nil]
      omega
  | emptied hhandler hqueue =>
      simp only [ClientRpc.left, EventLoop.owed, hhandler, HandlerPhase.left, List.length_nil]
      omega

/-! ## One connection -/

/-- What the ends of a connection have left to do, and what is on its way
between them. -/
abbrev Way := ℕ ×ₗ ℕ ×ₗ ℕ ×ₗ ℕ ×ₗ ℕ

def way (ids : List CallId) (owed : Nat) (k : RpcLink Unit S Req Resp) : Way :=
  toLex (k.client.phase.up + k.server.phase.up,
    toLex (k.client.driver.handler.left ids owed,
      toLex (bytesLeft k.client.outbound k.up k.server.unread,
        toLex (k.server.driver.handler.inFlight.length,
          bytesLeft k.server.outbound k.down k.client.unread))))

/-- Where the threads are with a connection. -/
def ends (k : RpcLink Unit S Req Resp) (near far : Readiness) : Nat :=
  near.left k.client.phase k.up + far.left k.server.phase k.down

theorem way_lt {a a' b b' c c' d d' e e' : ℕ}
    (h : a' < a ∨ a' ≤ a ∧ (b' < b ∨ b' ≤ b ∧ (c' < c ∨ c' ≤ c ∧
      (d' < d ∨ d' ≤ d ∧ e' < e)))) :
    (toLex (a', toLex (b', toLex (c', toLex (d', e')))) : Way) <
      toLex (a, toLex (b, toLex (c, toLex (d, e)))) := by
  simp only [Prod.Lex.toLex_lt_toLex]
  omega

theorem way_le {a a' b b' c c' d d' e e' : ℕ} (ha : a' ≤ a) (hb : b' ≤ b) (hc : c' ≤ c)
    (hd : d' ≤ d) (he : e' ≤ e) : (toLex (a', toLex (b', toLex (c', toLex (d', e')))) : Way) ≤
      toLex (a, toLex (b, toLex (c, toLex (d, e)))) := by
  simp only [Prod.Lex.toLex_le_toLex]
  omega

section Link

variable {k : RpcLink Unit S Req Resp} {near far : Readiness} {owed : Nat}

theorem client_nearer [LawfulBincode Resp] {a : ConnAction (RpcAction (Item Req))}
    {c : ClientConnection Unit Req Resp} {toks down : List Tok}
    (hgo : near.goesOn k.server.phase a = true)
    (hadmits : near.admits k.down k.up k.server.phase a = true)
    (hstep : k.client.step bytePipe clientOps k.down a = some (c, toks, down)) :
    way ids owed ⟨c, k.server, k.up ++ toks, down⟩ < way ids owed k ∨
      way ids owed ⟨c, k.server, k.up ++ toks, down⟩ ≤ way ids owed k ∧
        ends ⟨c, k.server, k.up ++ toks, down⟩ (near.after a)
          (far.peered a k.client.phase c.phase) < ends k near far := by
  have hother : a.isOther = false := by
    cases a with
    | other => cases hgo
    | _ => rfl
  have hgoes := step_goes hstep
  have hup : k.client.phase ≠ .removed := Connection.step_up hstep hother
  by_cases hph : c.phase = .removed
  · have : c.phase.up < k.client.phase.up := hph ▸ up_removed hup
    exact Or.inl (way_lt (Or.inl (Nat.add_lt_add_right this _)))
  · have hle : c.phase.up ≤ k.client.phase.up := up_le fun h => absurd h hup
    have hsame := Nat.add_le_add_right hle k.server.phase.up
    cases hgoes.nearer hph hother hgo hadmits with
    | consumed e m hconsume =>
        exact Or.inl (way_lt (Or.inr ⟨hsame, Or.inl (ClientRpc.left_consume hconsume)⟩))
    | produced e m hproduce =>
        exact Or.inl (way_lt (Or.inr ⟨hsame, Or.inl (ClientRpc.left_produce hproduce)⟩))
    | sent hdriver hunread hw hout =>
        refine Or.inl (way_lt (Or.inr ⟨hsame, Or.inr ⟨by rw [hdriver], Or.inl ?_⟩⟩))
        simp only [bytesLeft, bytesOf_append, List.length_append]
        omega
    | received hdriver hout htoks hin =>
        refine Or.inl (way_lt (Or.inr ⟨hsame, Or.inr ⟨by rw [hdriver], Or.inr ⟨?_, Or.inr
          ⟨le_refl _, ?_⟩⟩⟩⟩))
        · rw [hout, htoks, List.append_nil]
        · simp only [bytesLeft]
          omega
    | moved hdriver hout htoks hw hunread hsends hleft =>
        have hhandler : c.driver.handler = k.client.driver.handler := by
          rcases hdriver with h | ⟨e, h⟩
          · exact h
          · exact ClientRpc.eq_of_produce_none h
        refine Or.inr ⟨way_le hsame (by rw [hhandler]) ?_ (le_refl _) ?_, ?_⟩
        · rw [hout, htoks, List.append_nil]
        · simp only [bytesLeft]
          omega
        · rw [ends, ends, htoks, List.append_nil, Readiness.peered_same hsends (absurd · hph)]
          dsimp only
          rw [left_stream hw]
          omega

theorem server_nearer [LawfulBincode Req] {a : ConnAction E}
    {c : Connection Unit Req Resp (ServerHandler S Req Resp)} {toks up : List Tok}
    (hgo : far.goesOn k.client.phase a = true)
    (hadmits : far.admits k.up k.down k.client.phase a = true)
    (hstep : k.server.step bytePipe (serverOps process) k.up a = some (c, toks, up)) :
    way ids owed ⟨k.client, c, up, k.down ++ toks⟩ < way ids owed k ∨
      way ids owed ⟨k.client, c, up, k.down ++ toks⟩ ≤ way ids owed k ∧
        ends ⟨k.client, c, up, k.down ++ toks⟩ (near.peered a k.server.phase c.phase)
          (far.after a) < ends k near far := by
  have hother : a.isOther = false := by
    cases a with
    | other => cases hgo
    | _ => rfl
  have hgoes := step_goes hstep
  have hup : k.server.phase ≠ .removed := Connection.step_up hstep hother
  by_cases hph : c.phase = .removed
  · have : c.phase.up < k.server.phase.up := hph ▸ up_removed hup
    exact Or.inl (way_lt (Or.inl (Nat.add_lt_add_left this _)))
  · have hle : c.phase.up ≤ k.server.phase.up := up_le fun h => absurd h hup
    have hsame := Nat.add_le_add_left hle k.client.phase.up
    cases hgoes.nearer hph hother hgo hadmits with
    | consumed e m hconsume hunread hout hw =>
        refine Or.inl (way_lt (Or.inr ⟨hsame, Or.inr ⟨le_refl _, Or.inl ?_⟩⟩))
        simp only [bytesLeft, hw]
        omega
    | produced e m hproduce hunread hw =>
        refine Or.inl (way_lt (Or.inr ⟨hsame, Or.inr ⟨le_refl _, Or.inr ⟨?_, Or.inl ?_⟩⟩⟩))
        · simp only [hunread, hw, le_refl]
        · exact length_of_produce hproduce
    | sent hdriver hunread hw hout =>
        refine Or.inl (way_lt (Or.inr ⟨hsame, Or.inr ⟨le_refl _, Or.inr ⟨?_, Or.inr ⟨?_, ?_⟩⟩⟩⟩))
        · simp only [hunread, hw, le_refl]
        · simp only [hdriver, le_refl]
        · simp only [bytesLeft, bytesOf_append, List.length_append]
          omega
    | received hdriver hout htoks hin =>
        refine Or.inl (way_lt (Or.inr ⟨hsame, Or.inr ⟨le_refl _, Or.inl ?_⟩⟩))
        simp only [bytesLeft]
        omega
    | moved hdriver hout htoks hw hunread hsends hleft =>
        have hhandler : c.driver.handler.inFlight.length ≤
            k.server.driver.handler.inFlight.length := by
          rcases hdriver with h | ⟨e, h⟩
          · rw [h]
          · exact Nat.le_of_eq (by rw [eq_of_produce_none h])
        refine Or.inr ⟨way_le hsame (le_refl _) ?_ hhandler ?_, ?_⟩
        · simp only [bytesLeft]
          omega
        · rw [hout, htoks, List.append_nil]
        · rw [ends, ends, htoks, List.append_nil, Readiness.peered_same hsends (absurd · hph)]
          dsimp only
          rw [left_stream hw]
          omega

end Link

/-! ## All connections -/

/-- The requests that are not wakes. -/
def others (requests : List (Request Unit)) : Nat :=
  requests.countP fun
    | .wakeConnection _ => false
    | _ => true

def placeLeft : LoopPhase → Nat
  | .events es | .handlingEvent _ es => es.length + 2
  | .popping | .handlingWake _ => 1
  | .polling | .stopped => 0

/-- The wakes that the calls on a connection owe. -/
def owedBy (l : EventLoop Unit Req Resp) (id : ConnId) : Nat := (l.owing.map Prod.fst).count id

def wayOf (ids : ConnId → List CallId) (s : PolledLoop S Req Resp) (id : ConnId) : Way :=
  way (ids id) (owedBy s.loop id) (s.link id)

def endsOf (s : PolledLoop S Req Resp) (id : ConnId) : Nat :=
  ends (s.link id) (s.far id).near (s.far id).far + 6 * (reported s.loop id).length

def loopLeft (l : EventLoop Unit Req Resp) : Nat :=
  placeLeft l.phase + 3 * l.waker.toNat + 4 * l.ringing

abbrev Measure := ℕ ×ₗ Way ×ₗ ℕ ×ₗ ℕ ×ₗ ℕ

def left (ids : ConnId → List CallId) (s : PolledLoop S Req Resp) : Measure :=
  toLex (others s.loop.requests,
    toLex ((s.bound.map (wayOf ids s)).sum,
      toLex (s.loop.requests.length,
        toLex ((s.bound.map (endsOf s)).sum, loopLeft s.loop))))

variable {ids : ConnId → List CallId}

omit [Bincode Req] [Bincode Resp] in
/-- What a step brings nearer: a connection, a request, a thread or the loop. -/
theorem left_lt (hothers : others s'.loop.requests ≤ others s.loop.requests)
    (hbound : s'.bound = s.bound) (hway : ∀ id, wayOf ids s' id ≤ wayOf ids s id)
    (h : (∃ id ∈ s.bound, wayOf ids s' id < wayOf ids s id) ∨
      s'.loop.requests.length < s.loop.requests.length ∨
      (s'.loop.requests.length ≤ s.loop.requests.length ∧
        (∀ id, s'.endsOf id ≤ s.endsOf id) ∧
        ((∃ id ∈ s.bound, s'.endsOf id < s.endsOf id) ∨ loopLeft s'.loop < loopLeft s.loop))) :
    left ids s' < left ids s := by
  have hways : (s.bound.map (wayOf ids s')).sum ≤ (s.bound.map (wayOf ids s)).sum :=
    List.sum_le_sum fun id _ => hway id
  have hsome : ∀ {f g : ConnId → ℕ}, (∀ id, f id ≤ g id) → (∃ id ∈ s.bound, f id < g id) →
      (s.bound.map f).sum < (s.bound.map g).sum :=
    fun hle hlt => List.sum_lt_sum _ _ (fun id _ => hle id) hlt
  simp only [left, Prod.Lex.toLex_lt_toLex, hbound]
  rcases Nat.lt_or_eq_of_le hothers with hlt | heq
  · exact Or.inl hlt
  · refine Or.inr ⟨heq, ?_⟩
    rcases h with hless | h
    · exact Or.inl (List.sum_lt_sum _ _ (fun id _ => hway id) hless)
    · rcases lt_or_eq_of_le hways with hlt | heq
      · exact Or.inl hlt
      · refine Or.inr ⟨heq, ?_⟩
        rcases h with hless | ⟨hlength, hends, h⟩
        · exact Or.inl hless
        · rcases Nat.lt_or_eq_of_le hlength with hlt | heq
          · exact Or.inl hlt
          · refine Or.inr ⟨heq, ?_⟩
            rcases h with hless | hless
            · exact Or.inl (hsome hends hless)
            · have hends' : (s.bound.map s'.endsOf).sum ≤ (s.bound.map s.endsOf).sum :=
                List.sum_le_sum fun id _ => hends id
              exact (Nat.lt_or_eq_of_le hends').imp_right fun heq => ⟨heq, hless⟩

omit [Bincode Req] [Bincode Resp] in
theorem wayOf_same (hconn : connOf s'.loop id = connOf s.loop id) (hfar : s'.far id = s.far id)
    (howing : s'.loop.owing = s.loop.owing) : wayOf ids s' id = wayOf ids s id := by
  rw [wayOf, wayOf, owedBy, owedBy, howing, link, link, hconn, hfar]

omit [Bincode Req] [Bincode Resp] in
theorem endsOf_same (hconn : connOf s'.loop id = connOf s.loop id) (hfar : s'.far id = s.far id)
    (hreported : (reported s'.loop id).length ≤ (reported s.loop id).length) :
    s'.endsOf id ≤ s.endsOf id := by
  simp only [endsOf, link, hconn, hfar]
  omega

end PolledLoop

end Audioipc

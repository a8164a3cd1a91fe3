import Audioipc.Connection

/-!
# What a step of a connection does

Two inversion lemmas for `Connection.step`, from which everything that is
proved about runs of connections is derived.

`step_handled` says what a step asks of the handler (`Handled`), on any pipe
and with anything in the stream. `step_effect` says what a step does to the
lane to the peer (`Sends`) and to the lane from the peer (`Receives`), on a
lawful pipe and with known messages in flight towards the connection.
-/

namespace Audioipc

variable {P In Out H E : Type} [Bincode In] [AssociateHandleForMessage In]
  [Bincode Out] [AssociateHandleForMessage Out]

variable {pipe : PipeOps P} {ops : HandlerOps In Out H E} {Clean : P → Prop}
  {OkSend : ConnectionBuffer → Except IoError Nat → Prop}
  {c c' : Connection P In Out H} {w w' toks : List Tok} {pending : List (Item In)}

/-! ## The handler -/

/-- The step's part in the life of the handler. The handler is dropped
exactly when the connection is removed. -/
inductive Handled (ops : HandlerOps In Out H E) (c c' : Connection P In Out H) : Prop
  | nothing (hhandler : c'.driver.handler = c.driver.handler)
      (hsent : c'.log.sent = c.log.sent) (hreceived : c'.log.received = c.log.received)
      (hphase : c'.phase = .removed ↔ c.phase = .removed)
  | dropped (hhandler : c'.driver.handler = ops.drop c.driver.handler)
      (hsent : c'.log.sent = c.log.sent) (hreceived : c'.log.received = c.log.received)
      (hphase : c'.phase = .removed)
  | other (e : E) (h : H) (hops : ops.other e c.driver.handler = some h)
      (hhandler : c'.driver.handler = h)
      (hsent : c'.log.sent = c.log.sent) (hreceived : c'.log.received = c.log.received)
      (hphase : c'.phase = .removed ↔ c.phase = .removed)
  | consumed (e : E) (m : Item In) (h : H)
      (hops : ops.consume e c.driver.handler m = some (.ok (.ok ()), h))
      (hhandler : c'.driver.handler = h)
      (hsent : c'.log.sent = c.log.sent) (hreceived : c'.log.received = c.log.received ++ [m])
      (hphase : c'.phase = .removed ↔ c.phase = .removed)
  | rejected (e : E) (m : Item In) (err : IoError) (h : H)
      (hops : ops.consume e c.driver.handler m = some (.ok (.error err), h))
      (hhandler : c'.driver.handler = ops.drop h)
      (hsent : c'.log.sent = c.log.sent) (hreceived : c'.log.received = c.log.received ++ [m])
      (hphase : c'.phase = .removed)
  | panicked (e : E) (m : Item In) (msg : String) (h : H)
      (hops : ops.consume e c.driver.handler m = some (.error msg, h))
      (hhandler : c'.driver.handler = ops.drop h)
      (hsent : c'.log.sent = c.log.sent) (hreceived : c'.log.received = c.log.received)
      (hphase : c'.phase = .removed)
  | produced (e : E) (m : Item Out) (h : H)
      (hops : ops.produce e c.driver.handler = some (.ok (some m), h))
      (hhandler : c'.driver.handler = h)
      (hsent : c'.log.sent = c.log.sent ++ [m]) (hreceived : c'.log.received = c.log.received)
      (hphase : c'.phase = .removed ↔ c.phase = .removed)
  | lost (e : E) (m : Item Out) (h : H)
      (hops : ops.produce e c.driver.handler = some (.ok (some m), h))
      (hhandler : c'.driver.handler = ops.drop h)
      (hsent : c'.log.sent = c.log.sent) (hreceived : c'.log.received = c.log.received)
      (hphase : c'.phase = .removed)
  | drained (e : E) (h : H) (hops : ops.produce e c.driver.handler = some (.ok none, h))
      (hhandler : c'.driver.handler = h)
      (hsent : c'.log.sent = c.log.sent) (hreceived : c'.log.received = c.log.received)
      (hphase : c'.phase = .removed ↔ c.phase = .removed)
  | refused (e : E) (err : IoError) (h : H)
      (hops : ops.produce e c.driver.handler = some (.error err, h))
      (hhandler : c'.driver.handler = ops.drop h)
      (hsent : c'.log.sent = c.log.sent) (hreceived : c'.log.received = c.log.received)
      (hphase : c'.phase = .removed)

omit [Bincode In] [Bincode Out] in
theorem Handled.of_close {c₁ : Connection P In Out H} (hclosed : c' = c₁.close ops ∨
      ∃ p, c' = c₁.unwind ops p) (hhandler : c₁.driver.handler = c.driver.handler)
    (hsent : c₁.log.sent = c.log.sent) (hreceived : c₁.log.received = c.log.received) :
    Handled ops c c' := by
  rcases hclosed with rfl | ⟨p, rfl⟩ <;>
    exact .dropped (congrArg ops.drop hhandler) hsent hreceived rfl

omit [Bincode In] [Bincode Out] in
theorem recvInbound_handled (hph : c.phase ≠ .removed) {r : Except IoError Nat}
    (h : c.recvInbound pipe ops w r = some (c', w')) : Handled ops c c' := by
  unfold Connection.recvInbound at h
  split at h
  · cases h
  · cases h
    exact .of_close (Or.inr ⟨_, rfl⟩) rfl rfl rfl
  · dsimp only at h
    split at h <;> cases h
    case h_5 => exact .of_close (Or.inl rfl) rfl rfl rfl
    all_goals exact .nothing rfl rfl rfl (by simp [hph])

omit [Bincode Out] in
theorem processInbound_handled (hph : c.phase ≠ .removed) {e : E}
    (h : c.processInbound ops e = some c') :
    Handled ops c c' := by
  unfold Connection.processInbound at h
  split at h
  · cases h
  · rename_i t hturn
    rcases FramedDriver.processItem_handler hturn with
      ⟨hitem, hhandler, hres⟩ | ⟨m, msg, hitem, hres, hcons⟩ | ⟨m, r, hitem, hres, hcons⟩
    · rw [hitem] at h
      have hreceived : c.log.received ++ (none : Option (Item In)).toList = c.log.received := by
        simp
      split at h <;> cases h
      · exact .of_close (Or.inr ⟨_, rfl⟩) hhandler rfl hreceived
      · exact .of_close (Or.inl rfl) hhandler rfl hreceived
      · exact .nothing hhandler rfl hreceived (by simp [hph])
      · exact .nothing hhandler rfl hreceived (by simp [hph])
    · rw [hitem, hres] at h
      cases h
      exact .panicked e m msg _ hcons rfl rfl (by simp [Connection.unwind, Connection.close]) rfl
    · rw [hitem, hres] at h
      cases r with
      | ok u => cases h; exact .consumed e m _ hcons rfl rfl rfl Iff.rfl
      | error err => cases h; exact .rejected e m err _ hcons rfl rfl rfl rfl

omit [Bincode In] in
theorem flushOutbound_handled (hph : c.phase ≠ .removed) {done : Bool} {e : E}
    (h : c.flushOutbound ops done e = some c') : Handled ops c c' := by
  unfold Connection.flushOutbound at h
  split at h
  · cases h
  · rename_i t hturn
    rcases (FramedDriver.flushItem_cases hturn).2 with ⟨hprod, hitem, -, hres⟩ |
      ⟨err, hprod, hitem, -, hres⟩ | ⟨m, hprod, hitem, -, hres⟩ | ⟨m, hprod, hitem, hres, -⟩
    · rw [hitem, hres] at h
      cases h
      exact .drained e _ hprod rfl (by simp) rfl (by simp [hph])
    · rw [hitem, hres] at h
      cases h
      exact .refused e err _ hprod rfl (by simp [Connection.close]) rfl rfl
    · rw [hitem] at h
      rcases hres with ⟨err, hres⟩ | hres | ⟨hres, -⟩ <;> rw [hres] at h <;> cases h <;>
        exact .lost e m _ hprod rfl (by simp [Connection.unwind, Connection.close]) rfl rfl
    · rw [hitem, hres] at h
      cases h
      exact .produced e m _ hprod rfl rfl rfl Iff.rfl

omit [Bincode In] [Bincode Out] in
theorem sendOutbound_handled (hph : c.phase ≠ .removed) {done : Bool}
    {r : Except IoError Nat}
    (h : c.sendOutbound pipe ops done r = some (c', toks)) : Handled ops c c' := by
  unfold Connection.sendOutbound at h
  split at h
  · cases h
  · split at h
    · cases h
    · cases h
      exact .of_close (Or.inr ⟨_, rfl⟩) rfl rfl rfl
    · dsimp only at h
      split at h <;> cases h
      case h_1 => exact .of_close (Or.inl rfl) rfl rfl rfl
      case h_5 => exact .of_close (Or.inl rfl) rfl rfl rfl
      all_goals exact .nothing rfl rfl rfl (by simp [hph])

theorem step_handled {a : ConnAction E} (h : c.step pipe ops w a = some (c', toks, w')) :
    Handled ops c c' := by
  have hmoved : ∀ {ph : Phase}, c.phase ≠ .removed → ph ≠ .removed →
      Handled ops c { c with phase := ph } :=
    fun hph hph' => .nothing rfl rfl rfl (by simp [hph, hph'])
  have hfinish : ∀ {done registered}, c.phase ≠ .removed →
      Handled ops c (c.finish ops done registered) := by
    intro done registered hph
    unfold Connection.finish
    split
    · exact hmoved hph nofun
    · exact .of_close (Or.inl rfl) rfl rfl rfl
  unfold Connection.step at h
  split at h
  · rename_i hph
    cases h
    exact hmoved (by simp [hph]) (by split <;> simp)
  · rename_i hph
    cases h
    exact hmoved (by simp [hph]) nofun
  · cases h
    exact .of_close (Or.inl rfl) rfl rfl rfl
  · rename_i hph
    obtain ⟨⟨c₁, w₁⟩, hrecv, heq⟩ := Option.map_eq_some_iff.mp h
    cases heq
    exact recvInbound_handled (by simp [hph]) hrecv
  · rename_i hph
    obtain ⟨c₁, hproc, heq⟩ := Option.map_eq_some_iff.mp h
    cases heq
    exact processInbound_handled (by simp [hph]) hproc
  · rename_i hph
    obtain ⟨c₁, hflush, heq⟩ := Option.map_eq_some_iff.mp h
    cases heq
    exact flushOutbound_handled (by simp [hph]) hflush
  · rename_i hph
    obtain ⟨⟨c₁, toks₁⟩, hsend, heq⟩ := Option.map_eq_some_iff.mp h
    cases heq
    exact sendOutbound_handled (by simp [hph]) hsend
  · rename_i hph
    split at h <;> cases h
    exact hfinish (by simp [hph])
  · rename_i hph
    cases h
    exact hfinish (by simp [hph])
  · obtain ⟨handler, hother, heq⟩ := Option.map_eq_some_iff.mp h
    cases heq
    exact .other _ handler hother rfl rfl rfl Iff.rfl
  · cases h

/-! ## The lanes -/

/-- The step's part in the lane to the peer. -/
inductive Sends (c c' : Connection P In Out H) : List Tok → Prop
  | nothing (hsent : c'.log.sent = c.log.sent) (hout : c'.outbound = c.outbound)
      (htransferred : c'.log.transferred = c.log.transferred) : Sends c c' []
  | encoded (m : Item Out) (hm : Encodes m.body) (hsent : c'.log.sent = c.log.sent ++ [m])
      (hbuf : c'.outbound.buf = c.outbound.buf ++ frame (payload m.body))
      (hhandles : c'.outbound.handles = c.outbound.handles ++ m.handle.toList)
      (htransferred : c'.log.transferred = c.log.transferred) : Sends c c' []
  | sent (n : Nat) (hsent : c'.log.sent = c.log.sent) (hout : c'.outbound = c.outbound.sent n)
      (htransferred : c'.log.transferred = c.log.transferred ++ c.outbound.handles) :
      Sends c c' (segment c.outbound.handles (c.outbound.buf.take n))

/-- The unread part of the stream from the peer. -/
def Connection.unread (c : Connection P In Out H) : Bytes := c.driver.codec.unread c.inbound.buf

/-- The step's part in the lane from the peer, which had `pending` in flight
and then has `pending'`. -/
inductive Receives (c c' : Connection P In Out H) (w : List Tok) (pending : List (Item In)) :
    List Tok → List (Item In) → Prop
  | nothing (hunread : c'.unread = c.unread) (hhandles : c'.inbound.handles = c.inbound.handles)
      (hreceived : c'.log.received = c.log.received) (hpushed : c'.log.pushed = c.log.pushed) :
      Receives c c' w pending w pending
  | received (frag w' : List Tok) (hw : w = frag ++ w')
      (hunread : c'.unread = c.unread ++ bytesOf frag)
      (hhandles : c'.inbound.handles = c.inbound.handles ++ fdsOf frag)
      (hreceived : c'.log.received = c.log.received)
      (hpushed : c'.log.pushed = c.log.pushed ++ fdsOf frag) :
      Receives c c' w pending w' pending
  | delivered (m : Item In) (rest : List (Item In)) (hpending : pending = m :: rest)
      (hunread : c.unread = frame (payload m.body) ++ c'.unread)
      (hhandles : c.inbound.handles = m.handle.toList ++ c'.inbound.handles)
      (hreceived : c'.log.received = c.log.received ++ [m])
      (hpushed : c'.log.pushed = c.log.pushed) :
      Receives c c' w pending w rest

/-- The step's part in both lanes, and in what they rest on. -/
structure Effect (Clean : P → Prop) (c : Connection P In Out H)
    (w : List Tok) (pending : List (Item In)) (c' : Connection P In Out H) (toks w' : List Tok)
    (pending' : List (Item In)) : Prop where
  sends : Sends c c' toks
  receives : Receives c c' w pending w' pending'
  clean : c'.phase ≠ .removed → Clean c'.io
  panics : c'.panic = c.panic ∨ ∃ p, c'.panic = some p ∧ p.Local

/-- A step that touches neither lane and only drops the handler or keeps it. -/
theorem Effect.of_closed (hclosed : c' = c.close ops ∨ ∃ p, p.Local ∧ c' = c.unwind ops p) :
    Effect Clean c w pending c' [] w pending := by
  rcases hclosed with rfl | ⟨p, hp, rfl⟩
  · exact ⟨.nothing rfl rfl rfl, .nothing rfl rfl rfl rfl,
      fun h => absurd rfl h, Or.inl rfl⟩
  · exact ⟨.nothing rfl rfl rfl, .nothing rfl rfl rfl rfl,
      fun h => absurd rfl h, Or.inr ⟨p, rfl, hp⟩⟩

theorem recvInbound_effect (hpipe : LawfulPipe pipe Clean OkSend) (hclean : Clean c.io)
    (hshort : ShortCtl w) {r : Except IoError Nat}
    (h : c.recvInbound pipe ops w r = some (c', w')) :
    Effect Clean c w pending c' [] w' pending := by
  unfold Connection.recvInbound at h
  split at h
  · cases h
  · rename_i p hrecv
    cases h
    obtain ⟨rfl, -⟩ := hpipe.recv_safe hclean hshort hrecv
    exact .of_closed (Or.inr ⟨.handleQueueFull, trivial, rfl⟩)
  · rename_i res io inbound w₁ hrecv
    obtain ⟨hin, hio⟩ := hpipe.recv hclean hshort hrecv
    cases res with
    | ok n =>
        obtain ⟨frag, hw, hbuf, hhandles⟩ := hin
        have hunread : c.driver.codec.unread inbound.buf = c.unread ++ bytesOf frag := by
          rw [hbuf, LengthDelimitedCodec.unread, Connection.unread, LengthDelimitedCodec.unread,
            List.append_assoc]
        have hpushed : inbound.handles.drop c.inbound.handles.length = fdsOf frag := by
          rw [hhandles, List.drop_left]
        cases n with
        | zero =>
            cases h
            exact ⟨.nothing rfl rfl rfl, .received frag _ hw hunread hhandles rfl
              (by rw [hpushed]), fun _ => hio, Or.inl rfl⟩
        | succ n =>
            cases h
            exact ⟨.nothing rfl rfl rfl, .received frag _ hw hunread hhandles rfl
              (by rw [hpushed]), fun _ => hio, Or.inl rfl⟩
    | error e =>
        obtain ⟨rfl, rfl⟩ := hin
        have hlog : c.log.pushed ++ c.inbound.handles.drop c.inbound.handles.length
            = c.log.pushed := by simp
        rw [hlog] at h
        have hsame : ∀ {c'}, c' = { c with io := io } ∨
            c' = { c with io := io, phase := .flush false } →
            Effect Clean c w₁ pending c' [] w₁ pending := by
          rintro c' (rfl | rfl) <;>
          exact ⟨.nothing rfl rfl rfl, .nothing rfl rfl rfl rfl, fun _ => hio, Or.inl rfl⟩
        have hclosed : Effect Clean c w₁ pending
            (Connection.close ops { c with io := io }) [] w₁ pending :=
          ⟨.nothing rfl rfl rfl, .nothing rfl rfl rfl rfl, fun h => absurd rfl h, Or.inl rfl⟩
        cases e <;> cases h
        · exact hsame (Or.inr rfl)
        · exact hsame (Or.inl rfl)
        all_goals exact hclosed

theorem processInbound_effect [LawfulBincode In] {l : Lane In} (hlane : l.InFlight pending)
    (hunread : l.unread = c.unread) (hqueued : l.queued = c.inbound.handles)
    (hclean : Clean c.io) {e : E} (h : c.processInbound ops e = some c') :
    ∃ pending', Effect Clean c w pending c' [] w pending' := by
  unfold Connection.processInbound at h
  split at h
  · cases h
  · rename_i t hturn
    rcases hlane.processItem hunread hqueued hturn with
      ⟨hitem, hres, hsame, hhandles⟩ | ⟨msg, hitem, hres, hcodec, hbuf⟩ |
      ⟨m, rest, r, hitem, hres, hpending, hsplit, hhandles⟩
    · rw [hitem, hres] at h
      cases h
      exact ⟨pending, .nothing rfl rfl rfl, .nothing hsame hhandles (by simp) rfl,
        fun _ => hclean, Or.inl rfl⟩
    · rw [hitem, hres] at h
      cases h
      refine ⟨pending, .nothing rfl rfl rfl, .nothing ?_ (by rw [← hbuf]; rfl) (by simp
        [Connection.unwind, Connection.close]) rfl, fun h => absurd rfl h,
        Or.inr ⟨_, rfl, trivial⟩⟩
      show t.driver.codec.unread t.buffer.buf = c.driver.codec.unread c.inbound.buf
      rw [hcodec, hbuf]
    · rw [hitem, hres] at h
      cases r with
      | ok u =>
          cases h
          exact ⟨rest, .nothing rfl rfl rfl, .delivered m rest hpending hsplit hhandles rfl rfl,
            fun _ => hclean, Or.inl rfl⟩
      | error err =>
          cases h
          exact ⟨rest, .nothing rfl rfl rfl, .delivered m rest hpending hsplit hhandles rfl rfl,
            fun h => absurd rfl h, Or.inl rfl⟩

theorem flushOutbound_effect (hclean : Clean c.io) {done : Bool} {e : E}
    (h : c.flushOutbound ops done e = some c') :
    Effect Clean c w pending c' [] w pending := by
  unfold Connection.flushOutbound at h
  split at h
  · cases h
  · rename_i t hturn
    obtain ⟨hstate, hcases⟩ := FramedDriver.flushItem_cases hturn
    have hunread : t.driver.codec.unread c.inbound.buf = c.unread := by
      simp only [Connection.unread, LengthDelimitedCodec.unread, hstate]
    rcases hcases with ⟨-, hitem, hbuf, hres⟩ | ⟨err, -, hitem, hbuf, hres⟩ |
      ⟨m, -, hitem, hbuf, hres⟩ | ⟨m, -, hitem, hres, hm, hbuf, hhandles⟩
    · rw [hitem, hres] at h
      cases h
      exact ⟨.nothing (by simp) hbuf rfl, .nothing hunread rfl rfl rfl, fun _ => hclean,
        Or.inl rfl⟩
    · rw [hitem, hres] at h
      cases h
      exact ⟨.nothing (by simp [Connection.close]) hbuf rfl, .nothing hunread rfl rfl rfl,
        fun h => absurd rfl h, Or.inl rfl⟩
    · rw [hitem] at h
      rcases hres with ⟨err, hres⟩ | hres | ⟨hres, -⟩ <;> rw [hres] at h <;> cases h
      · exact ⟨.nothing (by simp [Connection.close]) hbuf rfl, .nothing hunread rfl rfl rfl,
          fun h => absurd rfl h, Or.inl rfl⟩
      all_goals
        exact ⟨.nothing (by simp [Connection.unwind, Connection.close]) hbuf rfl,
          .nothing hunread rfl rfl rfl, fun h => absurd rfl h, Or.inr ⟨_, rfl, trivial⟩⟩
    · rw [hitem, hres] at h
      cases h
      exact ⟨.encoded m hm rfl hbuf hhandles rfl, .nothing hunread rfl rfl rfl,
        fun _ => hclean, Or.inl rfl⟩

theorem sendOutbound_effect (hpipe : LawfulPipe pipe Clean OkSend) (hclean : Clean c.io)
    {done : Bool} {r : Except IoError Nat} (hok : OkSend c.outbound r)
    (h : c.sendOutbound pipe ops done r = some (c', toks)) :
    Effect Clean c w pending c' toks w pending := by
  unfold Connection.sendOutbound at h
  split at h
  · cases h
  · rename_i hne
    split at h
    · cases h
    · rename_i p hsend
      exact absurd hsend (hpipe.send_safe hclean (by simpa using hne))
    · rename_i res io outbound toks₁ hsend
      obtain ⟨hout, hio⟩ := hpipe.send hclean hok hsend
      cases res with
      | ok n =>
          cases n with
          | zero =>
              cases h
              obtain rfl := hout
              exact .of_closed (Or.inl rfl)
          | succ n =>
              cases h
              obtain ⟨-, rfl, rfl⟩ := hout
              have hio' : Clean io := hio.resolve_left fun ⟨_, he, _⟩ => nomatch he
              exact ⟨.sent _ rfl rfl (by simp), .nothing rfl rfl rfl rfl, fun _ => hio',
                Or.inl rfl⟩
      | error e =>
          obtain ⟨rfl, rfl⟩ := hout
          have hsame : e.transient = true → ∀ {c'},
              c' = { c with io := io } ∨ c' = { c with io := io, phase := .blocked done } →
              Effect Clean c w pending c' [] w pending := by
            intro htr c' hc'
            have hio' : Clean io := hio.resolve_left fun ⟨_, he, hf⟩ => by
              cases he; rw [htr] at hf; cases hf
            rcases hc' with rfl | rfl <;>
            exact ⟨.nothing rfl rfl rfl, .nothing rfl rfl rfl rfl, fun _ => hio', Or.inl rfl⟩
          have hclosed : Effect Clean c w pending
              (Connection.close ops { c with io := io }) [] w pending :=
            ⟨.nothing rfl rfl rfl, .nothing rfl rfl rfl rfl, fun h => absurd rfl h, Or.inl rfl⟩
          have hlog : c.log.transferred ++ fdsOf [] = c.log.transferred := by simp
          rw [hlog] at h
          cases e <;> cases h
          · exact hsame rfl (Or.inr rfl)
          · exact hsame rfl (Or.inl rfl)
          all_goals exact hclosed

/-- The condition on sends, as a condition on steps. -/
def GoodSend (OkSend : ConnectionBuffer → Except IoError Nat → Prop)
    (c : Connection P In Out H) : ConnAction E → Prop
  | .sendMsg r => OkSend c.outbound r
  | _ => True

instance {OkSend : ConnectionBuffer → Except IoError Nat → Prop} [∀ b r, Decidable (OkSend b r)]
    (c : Connection P In Out H) (a : ConnAction E) : Decidable (GoodSend OkSend c a) := by
  unfold GoodSend; split <;> infer_instance

theorem step_effect [LawfulBincode In] (hpipe : LawfulPipe pipe Clean OkSend)
    {l : Lane In} (hlane : l.InFlight pending) (hwire : l.wire = w)
    (hunread : l.unread = c.unread) (hqueued : l.queued = c.inbound.handles)
    (hclean : c.phase ≠ .removed → Clean c.io) {a : ConnAction E} (hgood : GoodSend OkSend c a)
    (h : c.step pipe ops w a = some (c', toks, w')) :
    ∃ pending', Effect Clean c w pending c' toks w' pending' := by
  have hshort : ShortCtl w := hwire ▸ hlane.short
  have hmoved : ∀ {ph}, c.phase ≠ .removed →
      Effect Clean c w pending { c with phase := ph } [] w pending := fun hph =>
    ⟨.nothing rfl rfl rfl, .nothing rfl rfl rfl rfl, fun _ => hclean hph, Or.inl rfl⟩
  have hfinish : ∀ {done registered}, c.phase ≠ .removed →
      Effect Clean c w pending (c.finish ops done registered) [] w pending := by
    intro done registered hph
    unfold Connection.finish
    split
    · exact hmoved hph
    · exact .of_closed (Or.inl rfl)
  unfold Connection.step at h
  split at h
  · rename_i hph
    cases h
    exact ⟨pending, hmoved (by simp [hph])⟩
  · rename_i hph
    cases h
    exact ⟨pending, hmoved (by simp [hph])⟩
  · cases h
    exact ⟨pending, .of_closed (Or.inl rfl)⟩
  · rename_i hph
    obtain ⟨⟨c₁, w₁⟩, hrecv, heq⟩ := Option.map_eq_some_iff.mp h
    cases heq
    exact ⟨pending, recvInbound_effect hpipe (hclean (by simp [hph])) hshort hrecv⟩
  · rename_i hph
    obtain ⟨c₁, hproc, heq⟩ := Option.map_eq_some_iff.mp h
    cases heq
    exact processInbound_effect hlane hunread hqueued (hclean (by simp [hph])) hproc
  · rename_i hph
    obtain ⟨c₁, hflush, heq⟩ := Option.map_eq_some_iff.mp h
    cases heq
    exact ⟨pending, flushOutbound_effect (hclean (by simp [hph])) hflush⟩
  · rename_i hph
    obtain ⟨⟨c₁, toks₁⟩, hsend, heq⟩ := Option.map_eq_some_iff.mp h
    cases heq
    exact ⟨pending, sendOutbound_effect hpipe (hclean (by simp [hph])) hgood hsend⟩
  · rename_i hph
    split at h
    · cases h
      exact ⟨pending, hfinish (by simp [hph])⟩
    · cases h
  · rename_i hph
    cases h
    exact ⟨pending, hfinish (by simp [hph])⟩
  · rename_i e
    obtain ⟨handler, hother, heq⟩ := Option.map_eq_some_iff.mp h
    cases heq
    exact ⟨pending, .nothing rfl rfl rfl, .nothing rfl rfl rfl rfl, hclean, Or.inl rfl⟩
  · cases h

/-! ## Invariants of handlers -/

/-- `J` relates the state of a handler to the messages it has produced and
consumed, and every call of the handler keeps it. A message whose encoding
fails was produced but not sent, and the handler is dropped then. -/
structure HandlerInv (ops : HandlerOps In Out H E)
    (J : H → List (Item Out) → List (Item In) → Prop) : Prop where
  drop : ∀ {h s r}, J h s r → J (ops.drop h) s r
  other : ∀ {e h h' s r}, J h s r → ops.other e h = some h' → J h' s r
  consume : ∀ {e h h' m s r}, J h s r → ops.consume e h m = some (.ok (.ok ()), h') →
    J h' s (r ++ [m])
  reject : ∀ {e h h' m err s r}, J h s r → ops.consume e h m = some (.ok (.error err), h') →
    J (ops.drop h') s (r ++ [m])
  panic : ∀ {e h h' m msg s r}, J h s r → ops.consume e h m = some (.error msg, h') →
    J (ops.drop h') s r
  produce : ∀ {e h h' m s r}, J h s r → ops.produce e h = some (.ok (some m), h') →
    J h' (s ++ [m]) r
  lose : ∀ {e h h' m s r}, J h s r → ops.produce e h = some (.ok (some m), h') →
    J (ops.drop h') s r
  drain : ∀ {e h h' s r}, J h s r → ops.produce e h = some (.ok none, h') → J h' s r
  refuse : ∀ {e h h' err s r}, J h s r → ops.produce e h = some (.error err, h') →
    J (ops.drop h') s r

omit [Bincode In] [Bincode Out] in
theorem HandlerInv.handled {J : H → List (Item Out) → List (Item In) → Prop}
    (hinv : HandlerInv ops J) (hJ : J c.driver.handler c.log.sent c.log.received)
    (h : Handled ops c c') : J c'.driver.handler c'.log.sent c'.log.received := by
  cases h with
  | nothing hh hs hr => rw [hh, hs, hr]; exact hJ
  | dropped hh hs hr => rw [hh, hs, hr]; exact hinv.drop hJ
  | other e h hops hh hs hr => rw [hh, hs, hr]; exact hinv.other hJ hops
  | consumed e m h hops hh hs hr => rw [hh, hs, hr]; exact hinv.consume hJ hops
  | rejected e m err h hops hh hs hr => rw [hh, hs, hr]; exact hinv.reject hJ hops
  | panicked e m msg h hops hh hs hr => rw [hh, hs, hr]; exact hinv.panic hJ hops
  | produced e m h hops hh hs hr => rw [hh, hs, hr]; exact hinv.produce hJ hops
  | lost e m h hops hh hs hr => rw [hh, hs, hr]; exact hinv.lose hJ hops
  | drained e h hops hh hs hr => rw [hh, hs, hr]; exact hinv.drain hJ hops
  | refused e err h hops hh hs hr => rw [hh, hs, hr]; exact hinv.refuse hJ hops

/-- `L` holds of a handler until it is dropped. -/
structure HandlerLive (ops : HandlerOps In Out H E) (L : H → Prop) : Prop where
  other : ∀ {e h h'}, L h → ops.other e h = some h' → L h'
  consume : ∀ {e h h' m}, L h → ops.consume e h m = some (.ok (.ok ()), h') → L h'
  produce : ∀ {e h h' m}, L h → ops.produce e h = some (.ok m, h') → L h'

omit [Bincode In] [Bincode Out] in
theorem HandlerLive.handled {L : H → Prop} (hlive : HandlerLive ops L)
    (hL : c.phase ≠ .removed → L c.driver.handler) (h : Handled ops c c') :
    c'.phase ≠ .removed → L c'.driver.handler := by
  intro hph
  cases h with
  | nothing hh _ _ hphase => rw [hh]; exact hL fun h => hph (hphase.mpr h)
  | other e h hops hh _ _ hphase => rw [hh]; exact hlive.other (hL fun h => hph (hphase.mpr h)) hops
  | consumed e m h hops hh _ _ hphase =>
      rw [hh]; exact hlive.consume (hL fun h => hph (hphase.mpr h)) hops
  | produced e m h hops hh _ _ hphase =>
      rw [hh]; exact hlive.produce (hL fun h => hph (hphase.mpr h)) hops
  | drained e h hops hh _ _ hphase =>
      rw [hh]; exact hlive.produce (hL fun h => hph (hphase.mpr h)) hops
  | dropped _ _ _ hphase | rejected _ _ _ _ _ _ _ _ hphase | panicked _ _ _ _ _ _ _ _ hphase
  | lost _ _ _ _ _ _ _ hphase | refused _ _ _ _ _ _ _ hphase => exact absurd hphase hph

end Audioipc

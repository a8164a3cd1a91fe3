import Audioipc.Agreement
import Audioipc.EventLoop

/-!
# What the poll reports of a connection

mio reports readiness by its edges: an event comes when bytes arrive, or
when the kernel has room again for a send that would have blocked, and does
not come again for what was reported before. So `recv_inbound` receives
until it would block, and `send_outbound` sends until it has sent everything
or would block, and a connection that is idle may rely on the next edge.

`Readiness` is what the poll has yet to report of one end. `Attends` is what
an end, its readiness and the two streams keep to: bytes that have arrived
are being received or will be reported, a whole message is never left in the
inbound buffer, what is left in the outbound buffer waits for room, and the
removal of the peer is noticed. Each is preserved by the steps of the end
itself (`Attends.step`) and by those of its peer (`Attends.peer`).
-/

namespace Audioipc

/-- The edges that are not delivered yet. `full`: a send would have blocked,
and the kernel has made no room since. -/
structure Readiness where
  readable : Bool
  writable : Bool
  full : Bool
deriving Repr, DecidableEq

/-- A receive gets to the end of the stream only after all bytes of it, and
would block only while more may come. -/
def mayReceive (w : List Tok) (peer : Phase) : Except IoError Nat → Bool
  | .ok 0 => (bytesOf w).isEmpty && peer == .removed
  | .error .wouldBlock => (bytesOf w).isEmpty && !(peer == .removed)
  | _ => true

/-- A send would block only on bytes that the peer has yet to receive, and
fails once there is no peer. -/
def maySend (v : List Tok) (peer : Phase) : Except IoError Nat → Bool
  | .ok _ => !(peer == .removed)
  | .error .wouldBlock => !(bytesOf v).isEmpty && !(peer == .removed)
  | _ => true

def EPIPE : Nat := 32

namespace Readiness

variable {E : Type}

def new : Readiness := ⟨false, false, false⟩

/-- The poll and the kernel let an end with the streams `w` from and `v` to
its peer take this step. Events may be spurious, but report what there is. -/
def admits (r : Readiness) (w v : List Tok) (peer : Phase) : ConnAction E → Bool
  | .event readable => readable || !r.readable
  | .recvMsg x => mayReceive w peer x
  | .sendMsg x => maySend v peer x
  | _ => true

def after (r : Readiness) : ConnAction E → Readiness
  | .event _ => { r with readable := false, writable := false }
  | .sendMsg (.error .wouldBlock) => { r with full := true }
  | _ => r

def sends : ConnAction E → Bool
  | .sendMsg (.ok n) => 0 < n
  | _ => false

/-- After a step of the peer, which takes it from `ph` to `ph'`. -/
def peered (r : Readiness) (a : ConnAction E) (ph ph' : Phase) : Readiness :=
  { r with readable := r.readable || sends a || (ph' == .removed && !(ph == .removed)) }

def room (r : Readiness) : Readiness := { r with writable := true, full := false }

/-- The loop thread goes on of itself: it has an event to deliver, or is in
the middle of one and no system call is interrupted or fails. -/
def goesOn (r : Readiness) (peer : Phase) : ConnAction E → Bool
  | .event _ => r.readable || r.writable
  | .recvMsg (.ok _) | .recvMsg (.error .wouldBlock) => true
  | .processItem _ | .flushItem _ => true
  | .sendMsg (.ok n) => 0 < n
  | .sendMsg (.error .wouldBlock) => true
  | .sendMsg (.error e) => peer == .removed && e == .os EPIPE
  | .finish registered => registered
  | _ => false

end Readiness

/-! ## One end -/

section Attends

variable {In Out H E : Type} [Bincode In] [AssociateHandleForMessage In]

/-- These bytes do not begin with the whole frame of a message. -/
def Partial (In : Type) [Bincode In] (unread : Bytes) : Prop :=
  ∀ m : In, Encodes m → ¬ frame (payload m) <+: unread

omit [AssociateHandleForMessage In] in
theorem partial_nil : Partial In [] := by
  rintro m - h
  have := congrArg List.length (List.prefix_nil.mp h)
  simp [HEADER_LEN] at this

/-- The thread is where it receives until there is nothing more. -/
def Phase.receiving : Phase → Bool
  | .recv | .process => true
  | _ => false

/-- The thread is on its way out after the end of the stream. -/
def Phase.ending : Phase → Bool
  | .flush true | .send true | .blocked true => true
  | _ => false

/-- The thread has left the loop of `send_outbound`. -/
def Phase.hasSent : Phase → Bool
  | .idle | .blocked _ => true
  | _ => false

variable [Bincode Out] [AssociateHandleForMessage Out]

structure Attends (c : Connection Unit In Out H) (r : Readiness) (w : List Tok) (peer : Phase) :
    Prop where
  readable : bytesOf w ≠ [] → r.readable = true ∨ c.phase.receiving = true
  writable : c.phase.hasSent = true → c.outbound.buf ≠ [] → r.writable = true ∨ r.full = true
  whole : c.phase ≠ .process → Partial In c.unread
  ended : peer = .removed → r.readable = true ∨ c.phase.receiving = true ∨ c.phase.ending = true
  ending : c.phase.ending = true → peer = .removed
  blocked : c.phase ≠ .blocked true

omit [Bincode Out] in
theorem attends_new (handler : H) :
    Attends (Connection.new () handler : Connection Unit In Out H) .new [] .idle where
  readable h := absurd rfl h
  writable _ h := absurd rfl h
  whole _ := partial_nil
  ended h := by cases h
  ending h := by cases h
  blocked h := by cases h

variable {c c' : Connection Unit In Out H} {r : Readiness} {w w' v toks : List Tok} {peer : Phase}

omit [Bincode Out] in
/-- A step of the peer: it sends, or it goes, or nothing of it matters. -/
theorem Attends.peered (h : Attends c r w peer) {toks : List Tok} {ph' : Phase}
    {a : ConnAction E} (hsends : bytesOf toks ≠ [] → Readiness.sends a = true)
    (hgone : peer = .removed → ph' = .removed) :
    Attends c (r.peered a peer ph') (w ++ toks) ph' where
  readable hne := by
    rw [bytesOf_append] at hne
    by_cases htoks : bytesOf toks = []
    · rw [htoks, List.append_nil] at hne
      exact (h.readable hne).imp_left fun hr => by simp [Readiness.peered, hr]
    · exact Or.inl (by simp [Readiness.peered, hsends htoks])
  writable := h.writable
  whole := h.whole
  ended hgone' := by
    by_cases hold : peer = .removed
    · exact (h.ended hold).imp_left fun hr => by simp [Readiness.peered, hr]
    · exact Or.inl (by simp [Readiness.peered, hgone', hold])
  ending hph := hgone (h.ending hph)
  blocked := h.blocked

omit [Bincode Out] in
theorem Attends.room (h : Attends c r w peer) : Attends c r.room w peer :=
  ⟨h.readable, fun _ _ => Or.inl rfl, h.whole, h.ended, h.ending, h.blocked⟩

/-! ## The steps of an end -/

omit [AssociateHandleForMessage In] in
theorem LengthDelimitedCodec.decodePayload_none {d d' : LengthDelimitedCodec} {buf buf' : Bytes}
    {n : Nat} (h : d.decodePayload In buf n = (.ok none, d', buf')) : d' = d ∧ buf' = buf := by
  unfold decodePayload at h
  split at h
  · cases h
  · rename_i heq
    cases h
    unfold decodeData at heq
    split at heq
    · cases heq
      exact ⟨rfl, rfl⟩
    · split at heq <;> cases heq

theorem decodeLength_none {buf buf' : Bytes} (h : decodeLength buf = .ok (none, buf')) :
    buf' = buf := by
  unfold decodeLength at h
  split at h
  · cases h
    rfl
  · split at h <;> cases h

omit [AssociateHandleForMessage In] in
/-- `decode` that yields nothing would yield nothing again, so there is no
whole message. -/
theorem LengthDelimitedCodec.decode_none [LawfulBincode In] {d d' : LengthDelimitedCodec}
    {buf buf' : Bytes} (h : d.decode In buf = .ok (.ok none, d', buf')) :
    Partial In (d'.unread buf') := by
  have hagain : d'.decode In buf' = .ok (.ok none, d', buf') := by
    have hdecode := h
    unfold decode at h
    split at h
    · split at h
      · cases h
      · rename_i heq
        cases h
        cases decodeLength_none heq
        exact hdecode
      · split at h
        · obtain ⟨rfl, rfl⟩ := decodePayload_none (Except.ok.inj h)
          unfold decode
          exact h
        · cases h
    · obtain ⟨rfl, rfl⟩ := decodePayload_none (Except.ok.inj h)
      exact hdecode
  rintro m hm ⟨tail, htail⟩
  have hsplit : d'.unread buf' ++ [] = frame (payload m) ++ tail := by
    rw [List.append_nil, htail]
  rcases d'.decode_frame hm hsplit with ⟨-, _, _, hdec, -⟩ | ⟨hlt, -⟩
  · rw [hdec] at hagain
    cases hagain
  · rw [← htail, List.length_append] at hlt
    omega

omit [AssociateHandleForMessage In] in
theorem LengthDelimitedCodec.decode_none_length {d d' : LengthDelimitedCodec} {buf buf' : Bytes}
    (h : d.decode In buf = .ok (.ok none, d', buf')) :
    (d'.unread buf').length = (d.unread buf).length := by
  unfold decode at h
  split at h
  · rename_i hs
    split at h
    · cases h
    · rename_i heq
      cases h
      cases decodeLength_none heq
      rfl
    · rename_i n rest heq
      obtain ⟨hlen, rfl⟩ := decodeLength_some heq
      split at h
      · obtain ⟨rfl, rfl⟩ := decodePayload_none (Except.ok.inj h)
        simp only [unread, hs, CodecState.consumed, List.length_append, length_frameHeader,
          List.length_drop, List.nil_append]
        omega
      · cases h
  · obtain ⟨rfl, rfl⟩ := decodePayload_none (Except.ok.inj h)
    rfl

/-- What a step of an end does to its phase, its buffers and its handler. -/
inductive Goes (ops : HandlerOps In Out H E) (c c' : Connection Unit In Out H)
    (w w' toks : List Tok) : ConnAction E → Prop
  | removed (a : ConnAction E) (hph' : c'.phase = .removed) (htoks : toks = []) :
      Goes ops c c' w w' toks a
  | event (readable : Bool) (hph : c.phase = .idle) (hw : w' = w) (htoks : toks = [])
      (hc : c' = { c with phase := if readable then .recv else .flush false }) :
      Goes ops c c' w w' toks (.event readable)
  | wake (hph : c.phase = .idle) (hw : w' = w) (htoks : toks = [])
      (hc : c' = { c with phase := .flush false }) : Goes ops c c' w w' toks .wake
  | received (n : Nat) (frag : List Tok) (hph : c.phase = .recv) (hw : w = frag ++ w')
      (htoks : toks = []) (hfrag : (bytesOf frag).length = n) (hdriver : c'.driver = c.driver)
      (hunread : c'.unread = c.unread ++ bytesOf frag) (hout : c'.outbound = c.outbound)
      (hph' : c'.phase = if n = 0 then .flush true else .process) :
      Goes ops c c' w w' toks (.recvMsg (.ok n))
  | receivedNone (e : IoError) (hph : c.phase = .recv) (hw : w' = w) (htoks : toks = [])
      (he : e.transient = true)
      (hc : c' = { c with phase := if e = .wouldBlock then .flush false else .recv }) :
      Goes ops c c' w w' toks (.recvMsg (.error e))
  | consumed (e : E) (m : Item In) (hph : c.phase = .process) (hw : w' = w) (htoks : toks = [])
      (hconsume : ops.consume e c.driver.handler m = some (.ok (.ok ()), c'.driver.handler))
      (hunread : c'.unread.length < c.unread.length) (hout : c'.outbound = c.outbound)
      (hph' : c'.phase = .process) : Goes ops c c' w w' toks (.processItem e)
  | processed (e : E) (hph : c.phase = .process) (hw : w' = w) (htoks : toks = [])
      (hhandler : c'.driver.handler = c.driver.handler) (hwhole : Partial In c'.unread)
      (hunread : c'.unread.length = c.unread.length)
      (hout : c'.outbound = c.outbound) (hph' : c'.phase = .recv) :
      Goes ops c c' w w' toks (.processItem e)
  | produced (e : E) (m : Item Out) (done : Bool) (hph : c.phase = .flush done) (hw : w' = w)
      (htoks : toks = [])
      (hproduce : ops.produce e c.driver.handler = some (.ok (some m), c'.driver.handler))
      (hunread : c'.unread = c.unread) (hph' : c'.phase = .flush done) :
      Goes ops c c' w w' toks (.flushItem e)
  | flushed (e : E) (done : Bool) (hph : c.phase = .flush done) (hw : w' = w) (htoks : toks = [])
      (hproduce : ops.produce e c.driver.handler = some (.ok none, c'.driver.handler))
      (hunread : c'.unread = c.unread) (hout : c'.outbound = c.outbound)
      (hph' : c'.phase = .send done) : Goes ops c c' w w' toks (.flushItem e)
  | sent (n : Nat) (done : Bool) (hph : c.phase = .send done) (hw : w' = w)
      (hn : n < c.outbound.buf.length)
      (htoks : toks = segment c.outbound.handles (c.outbound.buf.take (n + 1)))
      (hdriver : c'.driver = c.driver) (hin : c'.inbound = c.inbound)
      (hout : c'.outbound = c.outbound.sent (n + 1)) (hph' : c'.phase = .send done) :
      Goes ops c c' w w' toks (.sendMsg (.ok (n + 1)))
  | sentNone (e : IoError) (done : Bool) (hph : c.phase = .send done) (hw : w' = w)
      (htoks : toks = []) (he : e.transient = true) (hdriver : c'.driver = c.driver)
      (hin : c'.inbound = c.inbound) (hout : c'.outbound = c.outbound)
      (hph' : c'.phase = if e = .wouldBlock then .blocked done else .send done) :
      Goes ops c c' w w' toks (.sendMsg (.error e))
  | finished (done : Bool) (hph : c.phase = .blocked done ∨
        (c.phase = .send done ∧ c.outbound.buf = [])) (hw : w' = w) (htoks : toks = [])
      (hdone : (done && c.outbound.buf.isEmpty) = false) (hc : c' = { c with phase := .idle }) :
      Goes ops c c' w w' toks (.finish true)
  | other (e : E) (h : H) (hw : w' = w) (htoks : toks = [])
      (hother : ops.other e c.driver.handler = some h)
      (hc : c' = { c with driver := { c.driver with handler := h } }) :
      Goes ops c c' w w' toks (.other e)

variable {ops : HandlerOps In Out H E} {a : ConnAction E}

omit [Bincode In] [Bincode Out] [AssociateHandleForMessage In] [AssociateHandleForMessage Out] in
theorem length_splitBytes {n : Nat} {w : List Tok} (h : n ≤ (bytesOf w).length) :
    (bytesOf (splitBytes n w).1).length = n := by
  fun_induction splitBytes n w with
  | case1 => rfl
  | case2 n => simp at h
  | case3 n hs w ih => exact ih h
  | case4 n b w ih =>
      have hlen : n ≤ (bytesOf w).length := by simpa [bytesOf, Tok.bytes] using h
      simpa [bytesOf, Tok.bytes] using ih hlen

omit [Bincode Out] in
theorem recvInbound_goes {x : Except IoError Nat} (hph : c.phase = .recv)
    (h : c.recvInbound bytePipe ops w x = some (c', w')) :
    Goes ops c c' w w' [] (.recvMsg x) := by
  unfold Connection.recvInbound bytePipe at h
  cases x with
  | error e =>
      dsimp only at h
      have hlog : c.log.pushed ++ c.inbound.handles.drop c.inbound.handles.length
          = c.log.pushed := by simp
      rw [hlog] at h
      cases e <;> cases h
      · exact .receivedNone _ hph rfl rfl rfl (by simp)
      · exact .receivedNone _ hph rfl rfl rfl (by simp [← hph])
      all_goals exact .removed _ rfl rfl
  | ok n =>
      dsimp only at h
      split at h
      · cases h
      · rename_i hpush
        split at hpush
        · split at hpush <;> cases hpush
          cases h
          exact .removed _ rfl rfl
        · cases hpush
      · rename_i res io inbound w₁ hpush
        split at hpush
        · rename_i hle
          split at hpush <;> cases hpush
          rename_i hpush
          obtain ⟨hbuf, hhandles⟩ := ConnectionBuffer.pushHandles_ok hpush
          have hunread : c.driver.codec.unread inbound.buf
              = c.unread ++ bytesOf (splitBytes n w).1 := by
            rw [hbuf, Connection.unread, LengthDelimitedCodec.unread, LengthDelimitedCodec.unread,
              List.append_assoc]
          cases n <;> cases h <;>
            exact .received _ _ hph (splitBytes_append _ w).symm rfl (length_splitBytes hle) rfl
              hunread rfl rfl
        · cases hpush

omit [Bincode In] [Bincode Out] [AssociateHandleForMessage Out] in
theorem setLocalHandle_buf {body : In} {b b' : ConnectionBuffer} {m : Item In}
    (h : setLocalHandle body b = .ok (m, b')) : b'.buf = b.buf := by
  unfold setLocalHandle at h
  split at h
  · split at h
    · cases h
    · rename_i hpop
      cases h
      exact congrArg (fun p => p.2.buf) hpop.symm
  · cases h
    rfl

omit [Bincode Out] in
theorem processItem_goes [LawfulBincode In] {e : E} {d : FramedDriver H} {b : ConnectionBuffer}
    {t : Turn In H} (h : d.processItem ops e b = some t) :
    (t.result = .ok (.ok true) → ∃ m,
      ops.consume e d.handler m = some (.ok (.ok ()), t.driver.handler) ∧
      (t.driver.codec.unread t.buffer.buf).length < (d.codec.unread b.buf).length) ∧
    (t.result = .ok (.ok false) → t.driver.handler = d.handler ∧
      Partial In (t.driver.codec.unread t.buffer.buf) ∧
      (t.driver.codec.unread t.buffer.buf).length = (d.codec.unread b.buf).length) := by
  unfold FramedDriver.processItem at h
  split at h
  · cases h
    exact ⟨nofun, nofun⟩
  · cases h
    exact ⟨nofun, nofun⟩
  · rename_i hdec
    cases h
    exact ⟨nofun, fun _ => ⟨rfl, LengthDelimitedCodec.decode_none hdec,
      LengthDelimitedCodec.decode_none_length hdec⟩⟩
  · rename_i body codec buf hdec
    split at h
    · cases h
      exact ⟨nofun, nofun⟩
    · rename_i item inbound' hset
      split at h
      · cases h
      · cases h
        exact ⟨nofun, nofun⟩
      · rename_i r handler hconsume
        cases h
        have hbuf : inbound'.buf = buf := setLocalHandle_buf hset
        cases r with
        | error err => exact ⟨nofun, nofun⟩
        | ok u =>
            refine ⟨fun _ => ⟨item, hconsume, ?_⟩, nofun⟩
            have hlt := LengthDelimitedCodec.decode_some_lt hdec
            rw [← hbuf] at hlt
            exact hlt

omit [Bincode Out] in
theorem processInbound_goes [LawfulBincode In] {e : E} (hph : c.phase = .process)
    (h : c.processInbound ops e = some c') : Goes ops c c' w w [] (.processItem e) := by
  unfold Connection.processInbound at h
  split at h
  · cases h
  · rename_i t hturn
    obtain ⟨htrue, hfalse⟩ := processItem_goes hturn
    split at h <;> cases h <;> rename_i hres
    · exact .removed _ rfl rfl
    · exact .removed _ rfl rfl
    · obtain ⟨m, hconsume, hlt⟩ := htrue hres
      exact .consumed e m hph rfl rfl hconsume hlt rfl hph
    · obtain ⟨hhandler, hwhole, hlen⟩ := hfalse hres
      exact .processed e hph rfl rfl hhandler hwhole hlen rfl rfl

omit [Bincode In] in
theorem flushOutbound_goes [Bincode In] {done : Bool} {e : E} (hph : c.phase = .flush done)
    (h : c.flushOutbound ops done e = some c') : Goes ops c c' w w [] (.flushItem e) := by
  unfold Connection.flushOutbound at h
  split at h
  · cases h
  · rename_i t hturn
    obtain ⟨hstate, hcases⟩ := FramedDriver.flushItem_cases hturn
    have hunread : t.driver.codec.unread c.inbound.buf = c.unread := by
      simp only [Connection.unread, LengthDelimitedCodec.unread, hstate]
    rcases hcases with ⟨hproduce, -, hbuf, hres⟩ | ⟨err, -, -, -, hres⟩ | ⟨m, -, -, -, hres⟩ |
      ⟨m, hproduce, -, hres, -⟩
    · rw [hres] at h
      cases h
      exact .flushed e done hph rfl rfl hproduce hunread hbuf rfl
    · rw [hres] at h
      cases h
      exact .removed _ rfl rfl
    · rcases hres with ⟨err, hres⟩ | hres | ⟨hres, -⟩ <;> rw [hres] at h <;> cases h <;>
        exact .removed _ rfl rfl
    · rw [hres] at h
      cases h
      exact .produced e m done hph rfl rfl hproduce hunread hph

omit [Bincode Out] in
theorem sendOutbound_goes {done : Bool} {x : Except IoError Nat} (hph : c.phase = .send done)
    (h : c.sendOutbound bytePipe ops done x = some (c', toks)) :
    Goes ops c c' w w toks (.sendMsg x) := by
  unfold Connection.sendOutbound bytePipe at h
  split at h
  · cases h
  · cases x with
    | error e =>
        dsimp only at h
        cases e <;> cases h
        · exact .sentNone _ done hph rfl rfl rfl rfl rfl rfl (by simp)
        · exact .sentNone _ done hph rfl rfl rfl rfl rfl rfl (by simp [hph])
        all_goals exact .removed _ rfl rfl
    | ok n =>
        dsimp only at h
        by_cases hn : n ≤ c.outbound.buf.length
        · rw [if_pos hn] at h
          cases n with
          | zero =>
              cases h
              exact .removed _ rfl rfl
          | succ n =>
              cases h
              exact .sent n done hph rfl hn rfl rfl rfl rfl hph
        · rw [if_neg hn] at h
          cases h

theorem step_goes [LawfulBincode In] (h : c.step bytePipe ops w a = some (c', toks, w')) :
    Goes ops c c' w w' toks a := by
  have hfinish : ∀ {done registered}, (c.phase = .blocked done ∨
      (c.phase = .send done ∧ c.outbound.buf = [])) →
      Goes ops c (c.finish ops done registered) w w [] (.finish registered) := by
    intro done registered hph
    unfold Connection.finish
    split
    · rename_i hstay
      obtain ⟨hreg, hdone⟩ := Bool.and_eq_true_iff.mp hstay
      subst hreg
      rw [Bool.not_eq_true'] at hdone
      exact .finished done hph rfl rfl hdone rfl
    · exact .removed _ rfl rfl
  unfold Connection.step at h
  split at h
  · rename_i readable hph
    cases h
    exact .event readable hph rfl rfl rfl
  · rename_i hph
    cases h
    exact .wake hph rfl rfl rfl
  · cases h
    exact .removed _ rfl rfl
  · rename_i hph
    obtain ⟨⟨c₁, w₁⟩, hrecv, heq⟩ := Option.map_eq_some_iff.mp h
    cases heq
    exact recvInbound_goes hph hrecv
  · rename_i hph
    obtain ⟨c₁, hproc, heq⟩ := Option.map_eq_some_iff.mp h
    cases heq
    exact processInbound_goes hph hproc
  · rename_i hph
    obtain ⟨c₁, hflush, heq⟩ := Option.map_eq_some_iff.mp h
    cases heq
    exact flushOutbound_goes hph hflush
  · rename_i hph
    obtain ⟨⟨c₁, toks₁⟩, hsend, heq⟩ := Option.map_eq_some_iff.mp h
    cases heq
    exact sendOutbound_goes hph hsend
  · rename_i hph
    split at h <;> cases h
    rename_i hempty
    exact hfinish (Or.inr ⟨hph, by simpa using hempty⟩)
  · rename_i hph
    cases h
    exact hfinish (Or.inl hph)
  · obtain ⟨handler, hother, heq⟩ := Option.map_eq_some_iff.mp h
    cases heq
    exact .other _ handler rfl rfl hother rfl
  · cases h

omit [Bincode Out] in
/-- The thread leaves the part of the code in which it looks for messages to
send only when the handler has none. -/
theorem Goes.drained (h : Goes ops c c' w w' toks a) (busy : H → Prop)
    (hnone : ∀ e h h', ops.produce e h = some (.ok none, h') → ¬ busy h')
    (ha : a.isOther = false) (hph : c'.phase ≠ .removed) (hbusy : busy c'.driver.handler)
    (hlate : c'.phase.beforeDrained = false) :
    c.phase.beforeDrained = false ∧ c'.driver.handler = c.driver.handler := by
  cases h with
  | removed _ hph' => exact absurd hph' hph
  | event readable _ _ _ hc =>
      subst hc
      cases readable <;> cases hlate
  | wake _ _ _ hc =>
      subst hc
      cases hlate
  | received n _ _ _ _ _ _ _ _ hph' =>
      rw [hph'] at hlate
      cases n <;> cases hlate
  | receivedNone e _ _ _ _ hc =>
      subst hc
      dsimp only at hlate
      split at hlate <;> cases hlate
  | consumed _ _ _ _ _ _ _ _ hph' | processed _ _ _ _ _ _ _ _ hph'
  | produced _ _ _ _ _ _ _ _ hph' =>
      rw [hph'] at hlate
      cases hlate
  | flushed e _ _ _ _ hproduce => exact absurd hbusy (hnone e _ _ hproduce)
  | sent n done hsend _ _ _ hdriver _ _ _ => exact ⟨by rw [hsend]; rfl, by rw [hdriver]⟩
  | sentNone e done hsend _ _ _ hdriver _ _ _ => exact ⟨by rw [hsend]; rfl, by rw [hdriver]⟩
  | finished done hfinish _ _ _ hc =>
      subst hc
      refine ⟨?_, rfl⟩
      rcases hfinish with hblocked | ⟨hsend, -⟩
      · rw [hblocked]
        rfl
      · rw [hsend]
        rfl
  | other => cases ha

omit [Bincode Out] in
theorem Goes.stays (h : Goes ops c c' w w' toks a) (hph : c.phase = .removed) :
    c'.phase = .removed := by
  cases h with
  | removed _ hph' => exact hph'
  | other e handler hw htoks hother hc => rw [hc, hph]
  | event _ hidle | wake hidle | received _ _ hidle | receivedNone _ hidle | consumed _ _ hidle
  | processed _ hidle | produced _ _ _ hidle | flushed _ _ hidle | sent _ _ hidle
  | sentNone _ _ hidle => rw [hph] at hidle; cases hidle
  | finished done hfinish => rw [hph] at hfinish; simp at hfinish

omit [Bincode Out] in
theorem Goes.sends (h : Goes ops c c' w w' toks a) (hne : bytesOf toks ≠ []) :
    Readiness.sends a = true := by
  cases h with
  | sent => simp [Readiness.sends]
  | removed _ _ htoks | event _ _ _ htoks | wake _ _ htoks | received _ _ _ _ htoks
  | receivedNone _ _ _ htoks | consumed _ _ _ _ htoks | processed _ _ _ htoks
  | produced _ _ _ _ _ htoks | flushed _ _ _ _ htoks | sentNone _ _ _ _ htoks
  | finished _ _ _ htoks | other _ _ _ htoks => exact absurd (by rw [htoks]; rfl) hne

/-! ## What an end keeps to -/

namespace Attends

variable (h : Attends c r w peer)
include h

omit [Bincode Out] in
theorem mono {r' : Readiness} (hreadable : r.readable = true → r'.readable = true)
    (hwritable : r.writable = true → r'.writable = true) (hfull : r.full = true → r'.full = true) :
    Attends c r' w peer where
  readable hne := (h.readable hne).imp_left hreadable
  writable hph hne := (h.writable hph hne).imp hwritable hfull
  whole := h.whole
  ended hgone := (h.ended hgone).imp_left hreadable
  ending := h.ending
  blocked := h.blocked

omit [Bincode Out] in
/-- `handle_event`; an event that does not say readable leaves what there is
to report of that. -/
theorem event {readable : Bool} {r' : Readiness} (hidle : c.phase = .idle)
    (hkept : readable = false → r.readable = true → r'.readable = true) :
    Attends (c.handleEvent readable) r' w peer := by
  have hreadable : r.readable = true ∨ c.phase.receiving = true →
      r'.readable = true ∨ (c.handleEvent readable).phase.receiving = true := by
    rintro (hr | hrecv)
    · cases readable with
      | true => exact Or.inr rfl
      | false => exact Or.inl (hkept rfl hr)
    · simp [hidle, Phase.receiving] at hrecv
  refine ⟨fun hne => hreadable (h.readable hne), ?_, fun _ => h.whole (by simp [hidle]),
    fun hgone => ?_, ?_, ?_⟩
  · cases readable <;> simp [Connection.handleEvent, Phase.hasSent]
  · rcases h.ended hgone with hr | hrecv | hend
    · exact (hreadable (Or.inl hr)).imp_right Or.inl
    · exact (hreadable (Or.inr hrecv)).imp_right Or.inl
    · simp [hidle, Phase.ending] at hend
  · cases readable <;> simp [Connection.handleEvent, Phase.ending]
  · cases readable <;> simp [Connection.handleEvent]

omit [Bincode Out] in
theorem wake (hidle : c.phase = .idle) : Attends c.handleWake r w peer where
  readable hne := (h.readable hne).imp_right fun hrecv => by
    simp [hidle, Phase.receiving] at hrecv
  writable := by simp [Connection.handleWake, Phase.hasSent]
  whole _ := h.whole (by simp [hidle])
  ended hgone := (h.ended hgone).imp_right fun hph => by
    simp [hidle, Phase.receiving, Phase.ending] at hph
  ending := by simp [Connection.handleWake, Phase.ending]
  blocked := by simp [Connection.handleWake]

omit h [Bincode Out] in
theorem receiving (hph : c'.phase.receiving = true) (hwhole : c'.phase ≠ .process →
    Partial In c'.unread) : Attends c' r w' peer where
  readable _ := Or.inr hph
  writable hsent := by
    cases hph' : c'.phase <;> simp [hph', Phase.receiving, Phase.hasSent] at hph hsent
  whole := hwhole
  ended _ := Or.inr (Or.inl hph)
  ending hend := by
    cases hph' : c'.phase <;> simp [hph', Phase.receiving, Phase.ending] at hph hend
  blocked hblocked := by simp [hblocked, Phase.receiving] at hph

omit h [Bincode Out] in
/-- The end of the stream: there are no bytes left, and no peer. -/
theorem endOfStream (hph : c'.phase = .flush true) (hw : bytesOf w' = []) (hgone : peer = .removed)
    (hwhole : Partial In c'.unread) : Attends c' r w' peer where
  readable hne := absurd hw hne
  writable := by simp [hph, Phase.hasSent]
  whole _ := hwhole
  ended _ := Or.inr (Or.inr (by simp [hph, Phase.ending]))
  ending _ := hgone
  blocked := by simp [hph]

omit h [Bincode Out] in
/-- There is nothing more to receive for now. -/
theorem drainedStream (hph : c'.phase = .flush false) (hw : bytesOf w' = []) (hup : peer ≠ .removed)
    (hwhole : Partial In c'.unread) : Attends c' r w' peer where
  readable hne := absurd hw hne
  writable := by simp [hph, Phase.hasSent]
  whole _ := hwhole
  ended hgone := absurd hgone hup
  ending := by simp [hph, Phase.ending]
  blocked := by simp [hph]

omit [Bincode Out] in
/-- A step on the way out of the loop thread that receives nothing, and does not
leave `send_outbound`. -/
theorem sending (hrecv : c.phase.receiving = false) (hrecv' : c'.phase.receiving = false)
    (hsent : c'.phase.hasSent = false) (hending : c'.phase.ending = c.phase.ending)
    (hunread : c'.unread = c.unread) : Attends c' r w peer where
  readable hne := (h.readable hne).imp_right fun hr => by simp [hrecv] at hr
  writable hph := by simp [hsent] at hph
  whole _ := by
    rw [hunread]
    exact h.whole fun hproc => by simp [hproc, Phase.receiving] at hrecv
  ended hgone := by
    rw [hrecv', hending]
    exact (h.ended hgone).imp_right fun hr => by simpa [hrecv] using hr
  ending hend := h.ending (hending ▸ hend)
  blocked hblocked := by simp [hblocked, Phase.hasSent] at hsent

omit [Bincode Out] in
theorem blockedSend {done : Bool} (hsend : c.phase = .send done) (hph : c'.phase = .blocked done)
    (hup : peer ≠ .removed) (hunread : c'.unread = c.unread) :
    Attends c' { r with full := true } w peer := by
  have hdone : done = false := by
    cases done with
    | false => rfl
    | true => exact absurd (h.ending (by simp [hsend, Phase.ending])) hup
  subst hdone
  refine ⟨fun hne => (h.readable hne).imp_right fun hrecv => ?_, fun _ _ => Or.inr rfl,
    fun _ => ?_, fun hgone => absurd hgone hup, ?_, by simp [hph]⟩
  · simp [hsend, Phase.receiving] at hrecv
  · rw [hunread]
    exact h.whole (by simp [hsend])
  · simp [hph, Phase.ending]

omit [Bincode Out] in
/-- The end of `handle_event` or `handle_wake`. -/
theorem finished {done : Bool} (hfinish : c.phase = .blocked done ∨
      (c.phase = .send done ∧ c.outbound.buf = []))
    (hdone : (done && c.outbound.buf.isEmpty) = false) :
    Attends { c with phase := .idle } r w peer := by
  have hplace : c.phase.receiving = false ∧ c.phase ≠ .process ∧
      (c.phase.ending = false) ∧ (c.outbound.buf ≠ [] → c.phase.hasSent = true) := by
    rcases hfinish with hblocked | ⟨hsend, hempty⟩
    · have hdone' : done = false := by
        cases done with
        | false => rfl
        | true => exact absurd hblocked h.blocked
      simp [hblocked, hdone', Phase.receiving, Phase.ending, Phase.hasSent]
    · have hdone' : done = false := by simpa [hempty] using hdone
      simp [hsend, hdone', Phase.receiving, Phase.ending, hempty]
  obtain ⟨hrecv, hproc, hend, hsent⟩ := hplace
  refine ⟨fun hne => (h.readable hne).imp_right fun hr => ?_,
    fun _ hne => h.writable (hsent hne) hne, fun _ => h.whole hproc, fun hgone => ?_, ?_,
    by simp⟩
  · rw [hrecv] at hr
    cases hr
  · refine (h.ended hgone).imp_right fun hr => ?_
    rw [hrecv, hend] at hr
    simp at hr
  · simp [Phase.ending]

theorem step [LawfulBincode In] (ha : r.admits w v peer a = true)
    (hstep : c.step bytePipe ops w a = some (c', toks, w')) (hph : c'.phase ≠ .removed) :
    Attends c' (r.after a) w' peer := by
  cases step_goes hstep with
  | removed _ hph' => exact absurd hph' hph
  | event readable hidle hw htoks hc =>
      subst hw hc
      refine h.event hidle fun hevent hr => ?_
      simp [Readiness.admits, hevent, hr] at ha
  | wake hidle hw htoks hc =>
      subst hw hc
      exact h.wake hidle
  | received n frag hrecv hw htoks hfrag hdriver hunread hout hph' =>
      cases n with
      | zero =>
          obtain ⟨hempty, hgone⟩ : bytesOf w = [] ∧ peer = .removed := by
            simpa [Readiness.admits, mayReceive] using ha
          rw [hw, bytesOf_append] at hempty
          refine endOfStream hph' (List.append_eq_nil_iff.mp hempty).2 hgone ?_
          rw [hunread, List.length_eq_zero_iff.mp hfrag, List.append_nil]
          exact h.whole (by simp [hrecv])
      | succ n =>
          exact Attends.receiving (by simp [hph', Phase.receiving]) fun hne => absurd hph' hne
  | receivedNone e hrecv hw htoks he hc =>
      subst hw hc
      have hwhole := h.whole (by simp [hrecv])
      by_cases hblock : e = .wouldBlock
      · subst hblock
        obtain ⟨hempty, hup⟩ : bytesOf w' = [] ∧ peer ≠ .removed := by
          simpa [Readiness.admits, mayReceive] using ha
        exact drainedStream rfl hempty hup hwhole
      · rw [if_neg hblock]
        exact Attends.receiving rfl fun _ => hwhole
  | consumed e m hproc hw htoks hconsume hunread hout hph' =>
      exact Attends.receiving (by simp [hph', Phase.receiving]) fun hne => absurd hph' hne
  | processed e hproc hw htoks hhandler hwhole hunread hout hph' =>
      exact Attends.receiving (by simp [hph', Phase.receiving]) fun _ => hwhole
  | produced e m done hflush hw htoks hproduce hunread hph' =>
      subst hw
      exact h.sending (by simp [hflush, Phase.receiving]) (by simp [hph', Phase.receiving])
        (by simp [hph', Phase.hasSent]) (by rw [hph', hflush]) hunread
  | flushed e done hflush hw htoks hproduce hunread hout hph' =>
      subst hw
      exact h.sending (by simp [hflush, Phase.receiving]) (by simp [hph', Phase.receiving])
        (by simp [hph', Phase.hasSent]) (by rw [hph', hflush]; cases done <;> rfl) hunread
  | sent n done hsend hw hn htoks hdriver hin hout hph' =>
      subst hw
      exact h.sending (by simp [hsend, Phase.receiving]) (by simp [hph', Phase.receiving])
        (by simp [hph', Phase.hasSent]) (by rw [hph', hsend])
        (by rw [Connection.unread, Connection.unread, hdriver, hin])
  | sentNone e done hsend hw htoks he hdriver hin hout hph' =>
      subst hw
      have hunread : c'.unread = c.unread := by
        rw [Connection.unread, Connection.unread, hdriver, hin]
      by_cases hblock : e = .wouldBlock
      · subst hblock
        obtain ⟨-, hup⟩ : bytesOf v ≠ [] ∧ peer ≠ .removed := by
          simpa [Readiness.admits, maySend] using ha
        exact h.blockedSend hsend hph' hup hunread
      · have hsame : c'.phase = c.phase := by rw [hph', if_neg hblock, hsend]
        have hafter : r.after (.sendMsg (.error e) : ConnAction E) = r := by
          cases e <;> first | rfl | exact absurd rfl hblock
        rw [hafter]
        exact h.sending (by simp [hsend, Phase.receiving]) (by simp [hsame, hsend, Phase.receiving])
          (by simp [hsame, hsend, Phase.hasSent]) (by rw [hsame]) hunread
  | finished done hfinish hw htoks hdone hc =>
      subst hw hc
      exact h.finished hfinish hdone
  | other e handler hw htoks hother hc =>
      subst hw hc
      exact ⟨h.readable, h.writable, h.whole, h.ended, h.ending, h.blocked⟩

end Attends

/-! ## What an end can do -/

omit [Bincode In] [Bincode Out] in
theorem recvInbound_isSome {n : Nat} (h : n ≤ (bytesOf w).length) :
    (c.recvInbound bytePipe ops w (.ok n)).isSome = true := by
  unfold Connection.recvInbound bytePipe
  dsimp only
  rw [if_pos h]
  cases hpush : ConnectionBuffer.pushHandles
      { c.inbound with buf := c.inbound.buf ++ bytesOf (splitBytes n w).1 }
      (fdsOf (splitBytes n w).1) with
  | error p => rfl
  | ok inbound => cases n <;> rfl

omit [Bincode Out] in
theorem processInbound_isSome {e : E}
    (hconsume : ∀ m, (ops.consume e c.driver.handler m).isSome = true) :
    (c.processInbound ops e).isSome = true := by
  have hturn : (c.driver.processItem ops e c.inbound).isSome = true := by
    unfold FramedDriver.processItem
    split
    · rfl
    · rfl
    · rfl
    · split
      · rfl
      · rename_i item _ _
        obtain ⟨⟨r, handler⟩, hr⟩ := Option.isSome_iff_exists.mp (hconsume item)
        rw [hr]
        cases r <;> rfl
  obtain ⟨t, ht⟩ := Option.isSome_iff_exists.mp hturn
  unfold Connection.processInbound
  rw [ht]
  dsimp only
  split <;> rfl

omit [Bincode In] in
theorem flushOutbound_isSome {done : Bool} {e : E}
    (hproduce : (ops.produce e c.driver.handler).isSome = true) :
    (c.flushOutbound ops done e).isSome = true := by
  have hturn : (c.driver.flushItem ops e c.outbound).isSome = true := by
    obtain ⟨⟨r, handler⟩, hr⟩ := Option.isSome_iff_exists.mp hproduce
    unfold FramedDriver.flushItem
    rw [hr]
    rcases r with err | m
    · rfl
    · cases m with
      | none => rfl
      | some item =>
          dsimp only
          split
          · rfl
          · rfl
          · split <;> rfl
  obtain ⟨t, ht⟩ := Option.isSome_iff_exists.mp hturn
  unfold Connection.flushOutbound
  rw [ht]
  dsimp only
  split <;> rfl

/-- A loop thread that is at a connection goes on. -/
theorem exists_goesOn (r : Readiness) (w v : List Tok) (peer : Phase) (hidle : c.phase ≠ .idle)
    (hremoved : c.phase ≠ .removed) (e : E)
    (hconsume : ∀ m, (ops.consume e c.driver.handler m).isSome = true)
    (hproduce : (ops.produce e c.driver.handler).isSome = true) :
    ∃ a, r.goesOn peer a = true ∧ r.admits w v peer a = true ∧
      (c.step bytePipe ops w a).isSome = true := by
  cases hph : c.phase with
  | idle => exact absurd hph hidle
  | removed => exact absurd hph hremoved
  | recv =>
      by_cases hempty : bytesOf w = []
      · by_cases hgone : peer = .removed
        · refine ⟨.recvMsg (.ok 0), rfl, by simp [Readiness.admits, mayReceive, hempty, hgone], ?_⟩
          simp only [Connection.step, hph, Option.isSome_map]
          exact recvInbound_isSome (Nat.zero_le _)
        · refine ⟨.recvMsg (.error .wouldBlock), rfl,
            by simp [Readiness.admits, mayReceive, hempty, hgone], ?_⟩
          simp [Connection.step, hph, Connection.recvInbound, bytePipe]
      · refine ⟨.recvMsg (.ok 1), rfl, rfl, ?_⟩
        simp only [Connection.step, hph, Option.isSome_map]
        exact recvInbound_isSome (List.length_pos_iff.mpr hempty)
  | process =>
      refine ⟨.processItem e, rfl, rfl, ?_⟩
      simp only [Connection.step, hph, Option.isSome_map]
      exact processInbound_isSome hconsume
  | flush done =>
      refine ⟨.flushItem e, rfl, rfl, ?_⟩
      simp only [Connection.step, hph, Option.isSome_map]
      exact flushOutbound_isSome hproduce
  | send done =>
      by_cases hempty : c.outbound.buf = []
      · refine ⟨.finish true, rfl, rfl, ?_⟩
        simp [Connection.step, hph, hempty]
      · by_cases hgone : peer = .removed
        · refine ⟨.sendMsg (.error (.os EPIPE)), by simp [Readiness.goesOn, hgone], rfl, ?_⟩
          simp [Connection.step, hph, Connection.sendOutbound, hempty, bytePipe]
        · refine ⟨.sendMsg (.ok c.outbound.buf.length), ?_, ?_, ?_⟩
          · simpa [Readiness.goesOn] using List.length_pos_iff.mpr hempty
          · simp [Readiness.admits, maySend, hgone]
          · have hpos := List.length_pos_iff.mpr hempty
            obtain ⟨n, hn⟩ : ∃ n, c.outbound.buf.length = n + 1 :=
              ⟨_, (Nat.sub_add_cancel hpos).symm⟩
            simp [Connection.step, hph, Connection.sendOutbound, hempty, bytePipe, hn]
  | blocked done =>
      refine ⟨.finish true, rfl, rfl, ?_⟩
      simp [Connection.step, hph]

end Attends

end Audioipc

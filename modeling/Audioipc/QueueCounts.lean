import Audioipc.HandlePairing

/-!
# How long the handle queues are

The array of `send_msg` is never overrun, because no queue is ever longer
than `HANDLE_QUEUE_LIMIT`. A connection that sends no handles has a clean
control buffer whatever its sends do (`SendsNoHandles`), and what a receive
pushes is what the kernel delivers of the next control message. The queue of
a connection that sends them is as long as what was encoded since the last
send (`Counts`).
-/

namespace Audioipc

/-! ## A connection that sends no handles -/

namespace ControlBuffer

/-- From a clean buffer a receive delivers as many descriptors as a queue holds. -/
theorem decodeHandles_recvControl_take {b : ControlBuffer} (h : b.Clean) (fds : List Handle) :
    (b.recvControl fds).decodeHandles = .ok (fds.take HANDLE_QUEUE_LIMIT) ∧
      (b.recvControl fds).clear = new := by
  have hroom : (spare new - cmsgLen 0) / 4 = HANDLE_QUEUE_LIMIT := rfl
  have hsame : b.recvControl fds = b.recvControl (fds.take HANDLE_QUEUE_LIMIT) := by
    unfold recvControl
    rw [clean_chunkMut h, hroom, List.take_take, Nat.min_self]
  rw [hsame]
  exact decodeHandles_recvControl h (by rw [List.length_take]; exact Nat.min_le_left ..)

end ControlBuffer

/-- Whatever the state of the control buffer, `send_msg` stays inside its array. -/
theorem sendMsg_in_bounds {cmsg : ControlBuffer} {b : ConnectionBuffer}
    {r : Except IoError Nat} : Pipe.sendMsg cmsg b r ≠ some (.error .handleArrayIndex) := by
  have hencode : encodeQueued cmsg b.handles ≠ .error .handleArrayIndex := by
    unfold encodeQueued
    rw [if_neg (Nat.not_lt.mpr b.handles_le)]
    unfold ControlBuffer.encodeHandles
    intro h
    (repeat' split at h) <;> cases h
  intro h
  unfold Pipe.sendMsg at h
  split at h
  · cases h
  · split at h
    · rename_i p heq
      cases h
      exact hencode heq
    · split at h
      · split at h <;> cases h
      · cases h

section SendsNoHandles

variable {In Out H E : Type} [AssociateHandleForMessage In] [AssociateHandleForMessage Out]
  {ops : HandlerOps In Out H E} {c c' : Connection ControlBuffer In Out H}
  {w w' toks : List Tok}

/-- The control buffer is clean and no handle waits to be sent. -/
structure SendsNoHandles (c : Connection ControlBuffer In Out H) : Prop where
  clean : c.io.Clean
  outbound : c.outbound.handles = []

theorem recvInbound_sendsNoHandles (h : SendsNoHandles c) {r : Except IoError Nat}
    (hs : c.recvInbound unixPipe ops w r = some (c', w')) :
    SendsNoHandles c' ∧ (c.panic = none → c'.panic = some .handleQueueFull →
      ∃ n, r = .ok n ∧ HANDLE_QUEUE_LIMIT < c.inbound.handles.length +
        min HANDLE_QUEUE_LIMIT (fdsOf (splitBytes n w).1).length) := by
  unfold Connection.recvInbound at hs
  cases r with
  | error e =>
      have hclean : c.io.chunkMut.Clean := ControlBuffer.clean_chunkMut h.clean
      simp only [unixPipe, Pipe.recvMsg, pure, Except.pure] at hs
      cases e <;> cases hs <;>
        exact ⟨⟨hclean, h.outbound⟩, fun hnone hp => absurd (hnone.symm.trans hp) nofun⟩
  | ok n =>
      obtain ⟨hdecode, hclear⟩ := ControlBuffer.decodeHandles_recvControl_take h.clean
        (fdsOf (splitBytes n w).1)
      simp only [unixPipe, Pipe.recvMsg] at hs
      split at hs
      · cases hs
      · rename_i p hrecv
        cases hs
        split at hrecv
        · rw [hdecode] at hrecv
          dsimp only at hrecv
          split at hrecv
          · rename_i hpush
            cases hrecv
            obtain ⟨-, hlt⟩ := ConnectionBuffer.pushHandles_error hpush
            rw [List.length_take] at hlt
            exact ⟨⟨h.clean, h.outbound⟩, fun _ _ => ⟨n, rfl, hlt⟩⟩
          · cases hrecv
        · cases hrecv
      · rename_i res io inbound w₁ hrecv
        have hio : io.Clean := by
          split at hrecv
          · rw [hdecode] at hrecv
            dsimp only at hrecv
            split at hrecv
            · cases hrecv
            · cases hrecv
              exact hclear
          · cases hrecv
        split at hs <;> cases hs <;>
          exact ⟨⟨hio, h.outbound⟩, fun hnone hp => absurd (hnone.symm.trans hp) nofun⟩

theorem sendOutbound_sendsNoHandles (h : SendsNoHandles c) {done : Bool}
    {r : Except IoError Nat} (hs : c.sendOutbound unixPipe ops done r = some (c', toks)) :
    SendsNoHandles c' := by
  have hencode : encodeQueued c.io c.outbound.handles = .ok c.io := by
    rw [h.outbound]; rfl
  unfold Connection.sendOutbound at hs
  split at hs
  · cases hs
  · rename_i hne
    simp only [unixPipe, Pipe.sendMsg, if_neg hne, hencode] at hs
    cases r with
    | error e =>
        simp only [pure, Except.pure] at hs
        cases e <;> cases hs <;> exact ⟨h.clean, h.outbound⟩
    | ok n =>
        dsimp only at hs
        split at hs
        · cases hs
        · rename_i hsend
          split at hsend <;> cases hsend
        · rename_i res io outbound toks₁ hsend
          split at hsend
          · cases hsend
            have hclear : c.io.clear.Clean := by rw [h.clean]; rfl
            cases n <;> cases hs
            · exact ⟨h.clean, h.outbound⟩
            · exact ⟨hclear, rfl⟩
          · cases hsend

/-- The array of `send_msg` is not overrun in `send_outbound` either. -/
theorem sendOutbound_in_bounds {done : Bool} {r : Except IoError Nat}
    (hs : c.sendOutbound unixPipe ops done r = some (c', toks)) (hnone : c.panic = none) :
    c'.panic ≠ some .handleArrayIndex := by
  intro hindex
  unfold Connection.sendOutbound at hs
  split at hs
  · cases hs
  · split at hs
    · cases hs
    · rename_i p hsend
      cases hs
      cases hindex
      exact sendMsg_in_bounds hsend
    · dsimp only at hs
      split at hs <;> cases hs <;> exact absurd (hnone.symm.trans hindex) nofun

variable [Bincode In] [Bincode Out]

theorem step_sendsNoHandles (hplain : ∀ m : Item Out, m.handle = none) (h : SendsNoHandles c)
    {a : ConnAction E} (hs : c.step unixPipe ops w a = some (c', toks, w')) :
    SendsNoHandles c' := by
  unfold Connection.step at hs
  split at hs
  case h_4 =>
    obtain ⟨⟨c₁, w₁⟩, hrecv, heq⟩ := Option.map_eq_some_iff.mp hs
    cases heq
    exact (recvInbound_sendsNoHandles h hrecv).1
  case h_5 =>
    obtain ⟨c₁, hproc, heq⟩ := Option.map_eq_some_iff.mp hs
    cases heq
    unfold Connection.processInbound at hproc
    split at hproc
    · cases hproc
    · dsimp only at hproc
      split at hproc <;> cases hproc <;> exact ⟨h.clean, h.outbound⟩
  case h_6 =>
    obtain ⟨c₁, hflush, heq⟩ := Option.map_eq_some_iff.mp hs
    cases heq
    unfold Connection.flushOutbound at hflush
    split at hflush
    · cases hflush
    · rename_i t hturn
      have hout : t.buffer.handles = [] := by
        rcases (FramedDriver.flushItem_cases hturn).2 with ⟨-, -, hb, -⟩ | ⟨_, -, -, hb, -⟩ |
          ⟨_, -, -, hb, -⟩ | ⟨m, -, -, -, -, -, hb⟩
        · rw [hb]; exact h.outbound
        · rw [hb]; exact h.outbound
        · rw [hb]; exact h.outbound
        · rw [hb, h.outbound, hplain m]; rfl
      dsimp only at hflush
      split at hflush <;> cases hflush <;> exact ⟨h.clean, hout⟩
  case h_7 =>
    obtain ⟨⟨c₁, toks₁⟩, hsend, heq⟩ := Option.map_eq_some_iff.mp hs
    cases heq
    exact sendOutbound_sendsNoHandles h hsend
  case h_8 =>
    split at hs <;> cases hs
    unfold Connection.finish
    split <;> exact ⟨h.clean, h.outbound⟩
  case h_9 =>
    cases hs
    unfold Connection.finish
    split <;> exact ⟨h.clean, h.outbound⟩
  case h_10 =>
    obtain ⟨handler, hother, heq⟩ := Option.map_eq_some_iff.mp hs
    cases heq
    exact ⟨h.clean, h.outbound⟩
  all_goals cases hs <;> exact ⟨h.clean, h.outbound⟩

end SendsNoHandles

/-! ## What the queues hold -/

section Counts

variable {In Out H E : Type} [AssociateHandleForMessage In] [AssociateHandleForMessage Out]
  {ops : HandlerOps In Out H E} {c c' : Connection ControlBuffer In Out H}
  {w w' toks : List Tok} {flushed : Nat}

/-- The queues hold the handles of the messages encoded since `flushed`, and
the descriptors that have come and belong to no message consumed yet. -/
structure Counts (c : Connection ControlBuffer In Out H) (flushed : Nat) : Prop where
  outbound : flushed + c.outbound.handles.length = (handlesOf c.log.sent).length
  inbound : (handlesOf c.log.received).length + c.inbound.handles.length = c.log.pushed.length
  panic : c.panic = none

/-- The handles of the messages encoded up to the last send that took bytes. -/
def flushedAfter (c' : Connection ControlBuffer In Out H) (flushed : Nat) : ConnAction E → Nat
  | .sendMsg (.ok (_ + 1)) => (handlesOf c'.log.sent).length
  | _ => flushed

theorem recvInbound_counts (h : Counts c flushed) {r : Except IoError Nat}
    (hs : c.recvInbound unixPipe ops w r = some (c', w')) (hup : c'.phase ≠ .removed) :
    Counts c' flushed := by
  have hpushed : ∀ {b : ConnectionBuffer} {hs : List Handle},
      b.handles = c.inbound.handles ++ hs → (handlesOf c.log.received).length + b.handles.length =
        (c.log.pushed ++ b.handles.drop c.inbound.handles.length).length := by
    intro b hs hb
    have := h.inbound
    simp only [hb, List.drop_left, List.length_append]
    omega
  unfold Connection.recvInbound at hs
  split at hs
  · cases hs
  · cases hs
    exact absurd rfl hup
  · rename_i res io inbound w₁ hrecv
    have hin : ∃ hs, inbound.handles = c.inbound.handles ++ hs := by
      simp only [unixPipe, Pipe.recvMsg] at hrecv
      split at hrecv
      · cases hrecv
        exact ⟨[], (List.append_nil _).symm⟩
      · split at hrecv
        · split at hrecv
          · cases hrecv
          · split at hrecv
            · cases hrecv
            · rename_i hpush
              cases hrecv
              exact ⟨_, (ConnectionBuffer.pushHandles_ok hpush).2⟩
        · cases hrecv
    obtain ⟨hs', hin⟩ := hin
    split at hs <;> cases hs <;> first
      | exact absurd rfl hup
      | exact ⟨h.outbound, hpushed hin, h.panic⟩

theorem processInbound_counts [Bincode In] {e : E} (h : Counts c flushed)
    (hs : c.processInbound ops e = some c') (hup : c'.phase ≠ .removed) : Counts c' flushed := by
  unfold Connection.processInbound at hs
  split at hs
  · cases hs
  · rename_i t hturn
    have hcount : (handlesOf (c.log.received ++ t.item.toList)).length + t.buffer.handles.length =
        c.log.pushed.length := by
      have hinbound := h.inbound
      rw [FramedDriver.processItem_handles hturn, List.length_append] at hinbound
      rw [handlesOf_append, List.length_append]
      omega
    dsimp only at hs
    split at hs <;> cases hs <;> first
      | exact absurd rfl hup
      | exact ⟨h.outbound, hcount, h.panic⟩

theorem flushOutbound_counts [Bincode Out] {done : Bool} {e : E} (h : Counts c flushed)
    (hs : c.flushOutbound ops done e = some c') (hup : c'.phase ≠ .removed) :
    Counts c' flushed := by
  unfold Connection.flushOutbound at hs
  split at hs
  · cases hs
  · rename_i t hturn
    have hcount : flushed + t.buffer.handles.length =
        (handlesOf (c.log.sent ++ t.item.toList)).length := by
      have houtbound := h.outbound
      rcases (FramedDriver.flushItem_cases hturn).2 with ⟨-, hitem, hb, -⟩ | ⟨_, -, hitem, hb, -⟩ |
        ⟨_, -, hitem, hb, -⟩ | ⟨m, -, hitem, -, -, -, hb⟩
      · simpa [hitem, hb] using houtbound
      · simpa [hitem, hb] using houtbound
      · simpa [hitem, hb] using houtbound
      · simp only [hitem, hb, Option.toList_some, handlesOf_append, handlesOf_cons, handlesOf_nil,
          List.append_nil, List.length_append]
        omega
    dsimp only at hs
    split at hs <;> cases hs <;> first
      | exact absurd rfl hup
      | exact ⟨hcount, h.inbound, h.panic⟩

theorem sendOutbound_counts {done : Bool} {r : Except IoError Nat} (h : Counts c flushed)
    (hs : c.sendOutbound unixPipe ops done r = some (c', toks)) (hup : c'.phase ≠ .removed) :
    Counts c' (flushedAfter c' flushed (.sendMsg r : ConnAction E)) := by
  unfold Connection.sendOutbound at hs
  split at hs
  · cases hs
  · split at hs
    · cases hs
    · cases hs
      exact absurd rfl hup
    · rename_i hne _ res io outbound toks₁ hsend
      simp only [unixPipe, Pipe.sendMsg, if_neg hne] at hsend
      split at hsend
      · cases hsend
      · cases r with
        | ok n =>
            dsimp only at hsend
            split at hsend <;> cases hsend
            cases n with
            | zero =>
                cases hs
                exact absurd rfl hup
            | succ n =>
                cases hs
                exact ⟨Nat.add_zero _, h.inbound, h.panic⟩
        | error e =>
            cases hsend
            dsimp only at hs
            split at hs <;> cases hs <;> first
              | exact absurd rfl hup
              | exact ⟨h.outbound, h.inbound, h.panic⟩

variable [Bincode In] [Bincode Out]

theorem step_counts (h : c.phase ≠ .removed → Counts c flushed) {a : ConnAction E}
    (hs : c.step unixPipe ops w a = some (c', toks, w')) (hup : c'.phase ≠ .removed) :
    Counts c' (flushedAfter c' flushed a) := by
  unfold Connection.step at hs
  split at hs
  case h_4 hph =>
    obtain ⟨⟨c₁, w₁⟩, hrecv, heq⟩ := Option.map_eq_some_iff.mp hs
    cases heq
    exact recvInbound_counts (h (by rw [hph]; nofun)) hrecv hup
  case h_5 hph =>
    obtain ⟨c₁, hproc, heq⟩ := Option.map_eq_some_iff.mp hs
    cases heq
    exact processInbound_counts (h (by rw [hph]; nofun)) hproc hup
  case h_6 hph =>
    obtain ⟨c₁, hflush, heq⟩ := Option.map_eq_some_iff.mp hs
    cases heq
    exact flushOutbound_counts (h (by rw [hph]; nofun)) hflush hup
  case h_7 hph =>
    obtain ⟨⟨c₁, toks₁⟩, hsend, heq⟩ := Option.map_eq_some_iff.mp hs
    cases heq
    exact sendOutbound_counts (h (by rw [hph]; nofun)) hsend hup
  case h_8 hph =>
    split at hs <;> cases hs
    obtain ⟨hout, hin, hpanic⟩ := h (by rw [hph]; nofun)
    unfold Connection.finish at hup ⊢
    split at hup
    · rename_i hidle
      rw [if_pos hidle]
      exact ⟨hout, hin, hpanic⟩
    · exact absurd rfl hup
  case h_9 hph =>
    cases hs
    obtain ⟨hout, hin, hpanic⟩ := h (by rw [hph]; nofun)
    unfold Connection.finish at hup ⊢
    split at hup
    · rename_i hidle
      rw [if_pos hidle]
      exact ⟨hout, hin, hpanic⟩
    · exact absurd rfl hup
  case h_10 =>
    obtain ⟨handler, hother, heq⟩ := Option.map_eq_some_iff.mp hs
    cases heq
    obtain ⟨hout, hin, hpanic⟩ := h hup
    exact ⟨hout, hin, hpanic⟩
  case h_1 hph =>
    cases hs
    obtain ⟨hout, hin, hpanic⟩ := h (by rw [hph]; nofun)
    exact ⟨hout, hin, hpanic⟩
  case h_2 hph =>
    cases hs
    obtain ⟨hout, hin, hpanic⟩ := h (by rw [hph]; nofun)
    exact ⟨hout, hin, hpanic⟩
  case h_3 =>
    cases hs
    exact absurd rfl hup
  all_goals cases hs

end Counts

end Audioipc

import Audioipc.Driver

/-!
# One direction of a connection as a queue of messages

The messages that one side has encoded and the other has not yet decoded
are spread over four places: the sender's outbound buffer, the stream, the
receiver's inbound buffer and the header its codec has already consumed.
Their handles are in three places, and move at another pace. `Lane` collects
these places; `Lane.InFlight l pending` says that together they hold exactly
the messages `pending`, in order.

It is the refinement relation to a plain FIFO queue: encoding a message
appends it (`enqueue`), decoding takes the first one off (`deliver`),
sending and receiving leave the queue alone (`send`, `recv`). Its last two
fields are what makes the separate queue of handles safe: the handle of a
message is never behind any byte of its frame (`ahead`), and one control
message never has more handles than a queue holds (`short`).
-/

namespace Audioipc

variable {α : Type} [Bincode α] [AssociateHandleForMessage α]

/-- What the two ends and the stream hold of the messages of one direction. -/
structure Lane (α : Type) [AssociateHandleForMessage α] where
  sent : List (Item α)
  outbound : ConnectionBuffer
  wire : List Tok
  unread : Bytes
  queued : List Handle
  received : List (Item α)

namespace Lane

/-- The lane holds exactly the messages `pending`. -/
structure InFlight (l : Lane α) (pending : List (Item α)) : Prop where
  messages : l.sent = l.received ++ pending
  bytes : l.unread ++ bytesOf l.wire ++ l.outbound.buf = framesOf pending
  handles : l.queued ++ fdsOf l.wire ++ l.outbound.handles = handlesOf pending
  encodes : ∀ m ∈ pending, Encodes m.body
  ahead : ∀ arrived, arrived <+: l.wire → ∀ k < pending.length,
    (framesOf (pending.take k)).length < l.unread.length + (bytesOf arrived).length →
    (handlesOf (pending.take (k + 1))).length ≤ l.queued.length + (fdsOf arrived).length
  short : ShortCtl l.wire

/-- A lane on which nothing has happened yet. -/
def empty : Lane α := ⟨[], .empty, [], [], [], []⟩

theorem inFlight_empty : (empty : Lane α).InFlight [] where
  messages := rfl
  bytes := rfl
  handles := rfl
  encodes := by simp
  ahead := by simp
  short := by simp [empty, ShortCtl]

variable {l : Lane α} {pending : List (Item α)}

/-- `flush_outbound` encodes one more message and queues its handle. -/
theorem InFlight.enqueue (h : l.InFlight pending) {m : Item α} (hm : Encodes m.body)
    {b : ConnectionBuffer} (hbuf : b.buf = l.outbound.buf ++ frame (payload m.body))
    (hhandles : b.handles = l.outbound.handles ++ m.handle.toList) :
    ({ l with sent := l.sent ++ [m], outbound := b }).InFlight (pending ++ [m]) where
  messages := by rw [h.messages, List.append_assoc]
  bytes := by
    simp only [hbuf, framesOf_append, ← h.bytes, framesOf_cons, framesOf_nil,
      List.append_nil, List.append_assoc]
  handles := by
    simp only [hhandles, handlesOf_append, ← h.handles, handlesOf_cons, handlesOf_nil,
      List.append_nil, List.append_assoc]
  encodes := by
    intro m' hm'
    rcases List.mem_append.mp hm' with hold | hnew
    · exact h.encodes m' hold
    · rw [List.mem_singleton.mp hnew]; exact hm
  ahead := by
    intro arrived hpre k hk hlt
    dsimp only at hpre hlt ⊢
    rcases Nat.lt_or_ge k pending.length with hold | hnew
    · rw [List.take_append_of_le_length (Nat.le_of_lt hold)] at hlt
      rw [List.take_append_of_le_length hold]
      exact h.ahead arrived hpre k hold hlt
    · -- no byte of the new frame is on the stream yet
      obtain rfl : k = pending.length := by
        rw [List.length_append, List.length_singleton] at hk
        omega
      rw [List.take_left] at hlt
      have hlen := congrArg List.length h.bytes
      obtain ⟨rest, hrest⟩ := hpre
      rw [← hrest] at hlen
      simp only [bytesOf_append, List.length_append] at hlen
      omega
  short := h.short

/-- `send_msg` moves bytes off the front of the outbound buffer, and all
queued handles with the first of them. -/
theorem InFlight.send (h : l.InFlight pending) (n : Nat) :
    ({ l with
        outbound := l.outbound.sent n
        wire := l.wire ++ segment l.outbound.handles (l.outbound.buf.take n) }).InFlight
      pending where
  messages := h.messages
  bytes := by
    simp only [ConnectionBuffer.sent, bytesOf_append, bytesOf_segment, List.append_assoc,
      List.take_append_drop]
    rw [← List.append_assoc]
    exact h.bytes
  handles := by
    simp only [ConnectionBuffer.sent, fdsOf_append, fdsOf_segment, List.append_nil]
    rw [← List.append_assoc]
    exact h.handles
  encodes := h.encodes
  ahead := by
    intro arrived hpre k hk hlt
    dsimp only at hpre hlt ⊢
    obtain ⟨rest, hrest⟩ := hpre
    rcases List.append_eq_append_iff.mp hrest with ⟨as, hw, -⟩ | ⟨bs, hbs, hseg⟩
    · exact h.ahead arrived ⟨as, hw.symm⟩ k hk hlt
    · rcases fdsOf_of_segment_eq hseg with rfl | hfds
      · rw [List.append_nil] at hbs
        exact h.ahead arrived (hbs ▸ List.prefix_refl _) k hk hlt
      · -- the control message has arrived, and so have all handles
        have hall := congrArg List.length h.handles
        have hle := length_handlesOf_take_le pending (k + 1)
        rw [hbs, fdsOf_append, hfds]
        simp only [List.length_append] at hall ⊢
        omega
  short := h.short.append (shortCtl_segment l.outbound.handles_le _)

/-- `recv_msg` takes the next stretch of the stream. -/
theorem InFlight.recv (h : l.InFlight pending) {frag wire : List Tok}
    (hwire : l.wire = frag ++ wire) :
    ({ l with
        wire := wire
        unread := l.unread ++ bytesOf frag
        queued := l.queued ++ fdsOf frag }).InFlight pending where
  messages := h.messages
  bytes := by
    have := h.bytes
    rwa [hwire, bytesOf_append, ← List.append_assoc] at this
  handles := by
    have := h.handles
    rwa [hwire, fdsOf_append, ← List.append_assoc] at this
  encodes := h.encodes
  ahead := by
    intro arrived hpre k hk hlt
    have hpre' : frag ++ arrived <+: l.wire := by
      rw [hwire]
      exact (List.prefix_append_right_inj frag).mpr hpre
    have hold := h.ahead (frag ++ arrived) hpre' k hk
    simp only [bytesOf_append, fdsOf_append, List.length_append] at hold hlt ⊢
    have := hold (by omega)
    omega
  short := by
    have := h.short
    rw [hwire] at this
    exact this.of_append_right

/-- `process_inbound` decodes the first message. -/
theorem InFlight.deliver {m : Item α} (h : l.InFlight (m :: pending)) {unread : Bytes}
    {queued : List Handle} (hunread : l.unread = frame (payload m.body) ++ unread)
    (hqueued : l.queued = m.handle.toList ++ queued) :
    ({ l with
        unread := unread
        queued := queued
        received := l.received ++ [m] }).InFlight pending where
  messages := by rw [h.messages, List.append_assoc]; rfl
  bytes := by
    have := h.bytes
    rw [hunread, framesOf_cons] at this
    simp only [List.append_assoc, List.append_cancel_left_eq] at this ⊢
    exact this
  handles := by
    have := h.handles
    rw [hqueued, handlesOf_cons] at this
    simp only [List.append_assoc, List.append_cancel_left_eq] at this ⊢
    exact this
  encodes := fun m' hm' => h.encodes m' (List.mem_cons_of_mem _ hm')
  ahead := by
    intro arrived hpre k hk hlt
    have hold := h.ahead arrived hpre (k + 1) (by simpa using hk)
    rw [List.take_succ_cons, framesOf_cons, hunread] at hold
    rw [List.take_succ_cons, handlesOf_cons, hqueued] at hold
    simp only [List.length_append] at hold hlt ⊢
    have := hold (by omega)
    omega
  short := h.short

/-- When a byte of the first message's frame has been received, so has its
handle, and it is the first in the queue. -/
theorem InFlight.handle_arrived {m : Item α} (h : l.InFlight (m :: pending))
    (hpos : 0 < l.unread.length) : ∃ queued, l.queued = m.handle.toList ++ queued := by
  have hahead := h.ahead [] List.nil_prefix 0 (by simp) (by simpa using hpos)
  have hhandles := h.handles
  rw [handlesOf_cons] at hhandles
  have hlen : m.handle.toList.length ≤ l.queued.length := by
    simpa [handlesOf_cons] using hahead
  rw [List.append_assoc] at hhandles
  rcases List.append_eq_append_iff.mp hhandles with ⟨as, hm, -⟩ | ⟨bs, hq, -⟩
  · refine ⟨[], ?_⟩
    have : as = [] := by
      have := congrArg List.length hm
      rw [List.length_append] at this
      exact List.length_eq_zero_iff.mp (by omega)
    rw [hm, this]; simp
  · exact ⟨bs, hq⟩

/-- A turn of `process_inbound` on a lane: it takes the first message off,
with the handle the sender gave it, or it stops for want of a whole frame,
or the handler panics. `decode` never fails, and the handle is there. -/
theorem InFlight.processItem {Out H E : Type} [AssociateHandleForMessage Out]
    [LawfulBincode α] {ops : HandlerOps α Out H E} {e : E} {d : FramedDriver H}
    {b : ConnectionBuffer} {t : Turn α H} (h : l.InFlight pending)
    (hunread : l.unread = d.codec.unread b.buf) (hqueued : l.queued = b.handles)
    (ht : d.processItem ops e b = some t) :
    (t.item = none ∧ t.result = .ok (.ok false) ∧
      t.driver.codec.unread t.buffer.buf = d.codec.unread b.buf ∧
      t.buffer.handles = b.handles) ∨
    (∃ msg, t.item = none ∧ t.result = .error (.handler msg) ∧
      t.driver.codec = d.codec ∧ t.buffer = b) ∨
    (∃ m rest, ∃ r : Except IoError Unit, t.item = some m ∧
      t.result = .ok (r.map fun _ => true) ∧ pending = m :: rest ∧
      d.codec.unread b.buf = frame (payload m.body) ++ t.driver.codec.unread t.buffer.buf ∧
      b.handles = m.handle.toList ++ t.buffer.handles) := by
  have hbytes := h.bytes
  rw [hunread, List.append_assoc] at hbytes
  unfold FramedDriver.processItem at ht
  cases pending with
  | nil =>
      have hnil : d.codec.unread b.buf = [] := by
        rw [framesOf_nil] at hbytes
        exact (List.append_eq_nil_iff.mp hbytes).1
      obtain ⟨-, -, hdec⟩ := d.codec.decode_nil (α := α) hnil
      rw [hdec] at ht
      cases ht
      exact Or.inl ⟨rfl, rfl, rfl, rfl⟩
  | cons m rest =>
      have hm : Encodes m.body := h.encodes m (List.mem_cons_self ..)
      rw [framesOf_cons] at hbytes
      rcases d.codec.decode_frame hm hbytes with
        ⟨hge, c', buf', hdec, htail, -⟩ | ⟨-, c', buf', hdec, hsame⟩
      · rw [hdec] at ht
        have hpos : 0 < l.unread.length := by
          rw [length_frame] at hge
          rw [hunread]
          unfold HEADER_LEN at hge
          omega
        obtain ⟨queued, hq⟩ := h.handle_arrived hpos
        rw [hqueued] at hq
        obtain ⟨inbound', hset, hbuf, hhandles⟩ :=
          setLocalHandle_of_handle (b := { b with buf := buf' }) hq
        dsimp only at ht
        rw [hset] at ht
        dsimp only at ht
        split at ht
        · cases ht
        · cases ht
          exact Or.inr (Or.inl ⟨_, rfl, rfl, rfl, rfl⟩)
        · rename_i r _ _
          cases ht
          refine Or.inr (Or.inr ⟨m, rest, r, rfl, rfl, rfl, ?_, hq.trans ?_⟩)
          · rw [← htail] at hbytes
            simp only [← List.append_assoc] at hbytes
            dsimp only at hbuf ⊢
            rw [hbuf]
            exact List.append_cancel_right (List.append_cancel_right hbytes)
          · rw [hhandles]
      · rw [hdec] at ht
        cases ht
        exact Or.inl ⟨rfl, rfl, hsame, rfl⟩

end Lane

end Audioipc

import Audioipc.Codec

/-!
# Framing round trip

Encoding a list of messages gives one byte stream; however that stream is
cut into chunks, feeding the chunks to a decoder yields the messages back,
each as soon as its whole frame has arrived.

The proof follows the unread stream of `Codec`: `drain_spec` is one round
of `decode` calls on a buffer, by induction on the messages still to come,
and `feedAll_spec` chains the rounds over the chunks. What a round yields is
`arrived`, the messages whose frames lie entirely within the first `n`
bytes; `arrived_split` says how it grows when more bytes arrive.
-/

namespace Audioipc

variable {α : Type} [Bincode α]

/-! ## Encoding a list, decoding until nothing is left -/

/-- Encode the messages one after the other, stopping at the first `Err`. -/
def encodeAll (c : LengthDelimitedCodec) : List α → Bytes →
    Exec (Except IoError Unit × LengthDelimitedCodec × Bytes)
  | [], buf => return (.ok (), c, buf)
  | m :: ms, buf =>
      match c.encode m buf with
      | .error p => throw p
      | .ok (.error e, c', buf') => return (.error e, c', buf')
      | .ok (.ok (), c', buf') => encodeAll c' ms buf'

/-- Call `decode` until it returns `None` or `Err`, as `process_inbound`
does: the messages it yielded, the error if there was one, and the state it
stopped in. -/
def drain (α : Type) [Bincode α] (c : LengthDelimitedCodec) (buf : Bytes) :
    Exec (List α × Option IoError × LengthDelimitedCodec × Bytes) :=
  match _h : c.decode α buf with
  | .error p => throw p
  | .ok (.error e, c', buf') => return ([], some e, c', buf')
  | .ok (.ok none, c', buf') => return ([], none, c', buf')
  | .ok (.ok (some m), c', buf') =>
      match drain α c' buf' with
      | .error p => throw p
      | .ok (ms, e, c'', buf'') => return (m :: ms, e, c'', buf'')
termination_by (c.unread buf).length
decreasing_by exact LengthDelimitedCodec.decode_some_lt _h

theorem drain_of_none {c c' : LengthDelimitedCodec} {buf buf' : Bytes}
    (h : c.decode α buf = .ok (.ok none, c', buf')) :
    drain α c buf = .ok ([], none, c', buf') := by
  unfold drain
  split <;> rename_i heq <;> rw [h] at heq <;> cases heq
  rfl

theorem drain_of_some {c c' c'' : LengthDelimitedCodec} {buf buf' buf'' : Bytes}
    {m : α} {ms : List α} {e : Option IoError}
    (h : c.decode α buf = .ok (.ok (some m), c', buf'))
    (hd : drain α c' buf' = .ok (ms, e, c'', buf'')) :
    drain α c buf = .ok (m :: ms, e, c'', buf'') := by
  unfold drain
  split <;> rename_i heq <;> rw [h] at heq <;> cases heq
  simp only [hd]
  rfl

/-- Append the chunks one at a time, draining the buffer after each. -/
def feedAll (α : Type) [Bincode α] (c : LengthDelimitedCodec) (buf : Bytes) :
    List Bytes → Exec (List (List α × Option IoError) × LengthDelimitedCodec × Bytes)
  | [] => return ([], c, buf)
  | chunk :: chunks =>
      match drain α c (buf ++ chunk) with
      | .error p => throw p
      | .ok (ms, e, c', buf') =>
          match feedAll α c' buf' chunks with
          | .error p => throw p
          | .ok (outs, c'', buf'') => return ((ms, e) :: outs, c'', buf'')

/-! ## The frames within the first `n` bytes -/

/-- The leading messages whose whole frames lie in the first `n` bytes. -/
def arrived : List α → Nat → List α
  | [], _ => []
  | m :: ms, n =>
      if (frame (payload m)).length ≤ n then
        m :: arrived ms (n - (frame (payload m)).length)
      else []

theorem arrived_all (ms : List α) : arrived ms (frames ms).length = ms := by
  induction ms with
  | nil => rfl
  | cons m ms ih =>
      have hle : (frame (payload m)).length ≤ (frames (m :: ms)).length := by
        simp only [frames_cons, List.length_append]; omega
      have hsub : (frames (m :: ms)).length - (frame (payload m)).length
          = (frames ms).length := by
        simp only [frames_cons, List.length_append]; omega
      rw [arrived, if_pos hle, hsub, ih]

theorem arrived_split {ms rest : List α} {n : Nat} (h : ms = arrived ms n ++ rest)
    (k : Nat) : arrived ms (n + k) =
      arrived ms n ++ arrived rest (n - (frames (arrived ms n)).length + k) := by
  induction ms generalizing n with
  | nil =>
      obtain rfl : rest = [] := by simpa [arrived] using h
      simp [arrived]
  | cons m ms ih =>
      by_cases hle : (frame (payload m)).length ≤ n
      · have hcons : arrived (m :: ms) n
            = m :: arrived ms (n - (frame (payload m)).length) := by
          rw [arrived, if_pos hle]
        rw [hcons] at h ⊢
        have htail : ms = arrived ms (n - (frame (payload m)).length) ++ rest := by
          simpa using h
        rw [arrived, if_pos (by omega), frames_cons, List.cons_append, List.length_append,
          show n + k - (frame (payload m)).length
            = n - (frame (payload m)).length + k by omega, ih htail]
        congr 3
        omega
      · have hnil : arrived (m :: ms) n = [] := by rw [arrived, if_neg hle]
        rw [hnil] at h ⊢
        obtain rfl : m :: ms = rest := by simpa using h
        simp

/-! ## The rounds -/

/-- A successful run of encodes appends the frames of its messages. -/
theorem encodeAll_ok {c c' : LengthDelimitedCodec} {ms : List α} {buf buf' : Bytes}
    (h : encodeAll c ms buf = .ok (.ok (), c', buf')) :
    buf' = buf ++ frames ms ∧ ∀ m ∈ ms, Encodes m := by
  induction ms generalizing c buf with
  | nil =>
      cases h
      exact ⟨by simp, by simp⟩
  | cons m ms ih =>
      unfold encodeAll at h
      split at h
      · cases h
      · cases h
      · rename_i c₁ buf₁ heq
        rcases LengthDelimitedCodec.encode_cases heq with ⟨-, hm, -, rfl⟩ | ⟨e, he, -⟩
        · obtain ⟨rfl, hall⟩ := ih h
          refine ⟨by simp, fun m' hm' => ?_⟩
          rcases List.mem_cons.mp hm' with rfl | hmem
          · exact hm
          · exact hall m' hmem
        · cases he

variable [LawfulBincode α]

/-- One round on a stream that continues with `ms`: it yields the messages
whose frames have arrived and leaves the unread stream without a whole
frame. -/
theorem drain_spec {ms : List α} (hms : ∀ m ∈ ms, Encodes m)
    (c : LengthDelimitedCodec) {buf future : Bytes}
    (h : c.unread buf ++ future = frames ms) :
    ∃ rest c' buf', ms = arrived ms (c.unread buf).length ++ rest ∧
      drain α c buf = .ok (arrived ms (c.unread buf).length, none, c', buf') ∧
      c'.unread buf' ++ future = frames rest ∧
      arrived rest (c'.unread buf').length = [] := by
  induction ms generalizing c buf with
  | nil =>
      have hnil : c.unread buf = [] := (List.append_eq_nil_iff.mp h).1
      obtain ⟨-, -, hdec⟩ := c.decode_nil (α := α) hnil
      exact ⟨[], c, buf, rfl, drain_of_none hdec, h, rfl⟩
  | cons m ms ih =>
      rw [frames_cons] at h
      have hm : Encodes m := hms m (List.mem_cons_self ..)
      rcases c.decode_frame hm h with ⟨hge, c₁, buf₁, hdec, hrest, -⟩ | ⟨hlt, c₁, buf₁, hdec, hsame⟩
      · obtain ⟨rest, c', buf', hsplit, hdrain, hstream, hdone⟩ :=
          ih (fun m' hm' => hms m' (List.mem_cons_of_mem _ hm')) c₁ hrest
        -- the yielded frame accounts for the bytes that left the unread stream
        have hlen : (c.unread buf).length - (frame (payload m)).length
            = (c₁.unread buf₁).length := by
          have h₁ := congrArg List.length h
          have h₂ := congrArg List.length hrest
          simp only [List.length_append] at h₁ h₂
          omega
        have harr : arrived (m :: ms) (c.unread buf).length
            = m :: arrived ms (c₁.unread buf₁).length := by
          rw [arrived, if_pos hge, hlen]
        exact ⟨rest, c', buf', by rw [harr, List.cons_append, ← hsplit],
          by rw [harr]; exact drain_of_some hdec hdrain, hstream, hdone⟩
      · have harr : arrived (m :: ms) (c.unread buf).length = [] := by
          rw [arrived, if_neg (Nat.not_le.mpr hlt)]
        exact ⟨m :: ms, c₁, buf₁, by rw [harr, List.nil_append],
          by rw [harr]; exact drain_of_none hdec, by rw [hsame, h, frames_cons],
          by rw [hsame, harr]⟩

/-- The rounds over a list of chunks, starting from a drained decoder. -/
theorem feedAll_spec (chunks : List Bytes) {ms : List α} (hms : ∀ m ∈ ms, Encodes m)
    (c : LengthDelimitedCodec) (buf : Bytes)
    (hdone : arrived ms (c.unread buf).length = [])
    (h : c.unread buf ++ chunks.flatten = frames ms) :
    ∃ (outs : List (List α)) (c' : LengthDelimitedCodec) (buf' : Bytes),
      feedAll α c buf chunks = .ok (outs.map fun ms => (ms, none), c', buf') ∧
      outs.length = chunks.length ∧ c'.unread buf' = [] ∧
      ∀ k, (outs.take k).flatten =
        arrived ms ((c.unread buf).length + (chunks.take k).flatten.length) := by
  induction chunks generalizing ms c buf with
  | nil =>
      have hall : c.unread buf = frames ms := by simpa using h
      have hnil : ms = [] := by rw [← arrived_all ms, ← hall, hdone]
      exact ⟨[], c, buf, rfl, rfl, by rw [hall, hnil, frames_nil], fun k => by simp [hdone]⟩
  | cons chunk chunks ih =>
      have hunread : c.unread (buf ++ chunk) = c.unread buf ++ chunk := by
        simp [LengthDelimitedCodec.unread]
      have hstream : c.unread (buf ++ chunk) ++ chunks.flatten = frames ms := by
        simpa [hunread] using h
      obtain ⟨rest, c₁, buf₁, hsplit, hdrain, hrest, hdone₁⟩ := drain_spec hms c hstream
      have hlen := congrArg List.length hstream
      rw [hsplit, frames_append, ← hrest] at hlen
      simp only [List.length_append] at hlen
      obtain ⟨outs, c', buf', hfeed, houts, hnil, hpref⟩ :=
        ih (fun m hm => hms m (hsplit ▸ List.mem_append_right _ hm)) c₁ buf₁ hdone₁ hrest
      refine ⟨arrived ms (c.unread (buf ++ chunk)).length :: outs, c', buf', ?_,
        by simp [houts], hnil, fun k => ?_⟩
      · simp only [feedAll, hdrain, hfeed, List.map_cons]
        rfl
      · cases k with
        | zero => simp [hdone]
        | succ k =>
            have hlen' : (c.unread (buf ++ chunk)).length -
                (frames (arrived ms (c.unread (buf ++ chunk)).length)).length
                = (c₁.unread buf₁).length := by omega
            rw [List.take_succ_cons, List.flatten_cons, hpref k, ← hlen',
              ← arrived_split hsplit]
            congr 1
            simp only [hunread, List.length_append, List.take_succ_cons, List.flatten_cons]
            omega

/-- **Framing round trip.** However the bytes that a list of successful
encodes appended are cut into chunks, feeding the chunks to a fresh decoder
raises no panic and no `Err`; after each chunk the messages yielded so far
are those whose whole frames have arrived, after the last chunk they are all
of them, the buffer is empty and the decoder expects a header. An `encode`
that returns `Err` leaves its buffer as it was. -/
theorem framing_round_trip (α : Type) [Bincode α] [LawfulBincode α] :
    (∀ (enc enc' : LengthDelimitedCodec) (ms : List α) (dst B : Bytes) (chunks : List Bytes),
      encodeAll enc ms dst = .ok (.ok (), enc', dst ++ B) → chunks.flatten = B →
      ∃ (outs : List (List α)) (dec : LengthDelimitedCodec),
        feedAll α .default [] chunks = .ok (outs.map fun ms => (ms, none), dec, []) ∧
        dec.state = .length ∧ outs.flatten = ms ∧ outs.length = chunks.length ∧
        ∀ k, (outs.take k).flatten = arrived ms (chunks.take k).flatten.length) ∧
    (∀ (enc enc' : LengthDelimitedCodec) (m : α) (dst dst' : Bytes) (e : IoError),
      enc.encode m dst = .ok (.error e, enc', dst') → dst' = dst) := by
  refine ⟨fun enc enc' ms dst B chunks henc hB => ?_, fun enc enc' m dst dst' e henc => ?_⟩
  · obtain ⟨hbuf, hms⟩ := encodeAll_ok henc
    have hB' : chunks.flatten = frames ms := by rw [hB, List.append_cancel_left hbuf]
    have hstart : (LengthDelimitedCodec.default).unread [] = [] := rfl
    obtain ⟨outs, dec, buf', hfeed, houts, hnil, hpref⟩ :=
      feedAll_spec chunks hms LengthDelimitedCodec.default []
        (by cases ms <;> simp [hstart, arrived, HEADER_LEN]) (by rw [hstart, hB']; rfl)
    obtain ⟨hstate, rfl, -⟩ := dec.decode_nil (α := α) hnil
    have hpref' : ∀ k, (outs.take k).flatten = arrived ms (chunks.take k).flatten.length := by
      intro k; simpa [hstart] using hpref k
    refine ⟨outs, dec, hfeed, hstate, ?_, houts, hpref'⟩
    have := hpref' chunks.length
    rwa [List.take_length, ← houts, List.take_length, hB', arrived_all] at this
  · rcases LengthDelimitedCodec.encode_cases henc with ⟨he, -⟩ | ⟨-, -, hsame, -⟩
    · cases he
    · exact hsame

/-- bincode writes a `u8` as itself and rejects trailing bytes. -/
instance : Bincode UInt8 where
  serializeInto b := ([b], .ok ())
  deserialize
    | [b] => .ok b
    | [] => .error (.other "unexpected end of file")
    | _ :: _ :: _ => .error (.other "Slice had bytes remaining after deserialization")

instance : LawfulBincode UInt8 where
  deserialize_serializeInto h := by cases h; rfl

/-- Two messages cut inside the first magic, at an empty chunk and one byte
before the end. -/
theorem framing_round_trip_u8 :
    ∃ (outs : List (List UInt8)) (dec : LengthDelimitedCodec),
      feedAll UInt8 .default []
          [(frames [(7 : UInt8), 9]).take 3, [], ((frames [(7 : UInt8), 9]).drop 3).take 22,
            (frames [(7 : UInt8), 9]).drop 25] =
        .ok (outs.map fun ms => (ms, none), dec, []) ∧
      outs.flatten = [7, 9] ∧ (outs.take 3).flatten = [7] := by
  obtain ⟨outs, dec, hfeed, -, hall, -, hpref⟩ :=
    (framing_round_trip UInt8).1 .default ⟨.length, [9]⟩ [7, 9] [] (frames [(7 : UInt8), 9])
      [(frames [(7 : UInt8), 9]).take 3, [], ((frames [(7 : UInt8), 9]).drop 3).take 22,
        (frames [(7 : UInt8), 9]).drop 25] rfl (by decide)
  exact ⟨outs, dec, hfeed, hall, by rw [hpref 3]; decide⟩

end Audioipc

import Audioipc.Wakes

/-!
# The connection that the loop is at

The loop thread handles one connection at a time, and leaves it before it
goes on to the next one: at most one connection is in the middle of
something, and a connection in the slab is not removed (`Seated`). There are
only those connections that were bound, and a wake is owed by a call on one
of them.
-/

namespace Audioipc

variable {Req Resp : Type} [Bincode Req] [AssociateHandleForMessage Req]
  [Bincode Resp] [AssociateHandleForMessage Resp]

namespace EventLoop

variable {l l' : EventLoop Unit Req Resp} {id : ConnId} {e : Entry Unit Req Resp}

/-- The loop is in the middle of something with the connection it is at. -/
def InMiddle (ph : Phase) : Prop := ph ≠ .idle ∧ ph ≠ .removed

structure Seated (l : EventLoop Unit Req Resp) : Prop where
  current : ∀ id e, l.entries id = some e → (l.phase.current = some id ↔ InMiddle e.conn.phase)
  registered : ∀ t id e, l.slab t = some id → l.entries id = some e → e.conn.phase ≠ .removed

omit [Bincode Req] [Bincode Resp] in
theorem seated_new : (new : EventLoop Unit Req Resp).Seated :=
  ⟨fun _ _ he => absurd he (by simp [new]), fun _ _ _ ht => absurd ht (by simp [new])⟩

omit [Bincode Req] [Bincode Resp] in
theorem Seated.idle (h : l.Seated) (hcur : l.phase.current = none) (he : l.entries id = some e)
    (hremoved : e.conn.phase ≠ .removed) : e.conn.phase = .idle := by
  by_contra hidle
  have := (h.current id e he).mpr ⟨hidle, hremoved⟩
  rw [hcur] at this
  cases this

omit [Bincode Req] [Bincode Resp] in
theorem Seated.congr (h : l.Seated) (hentries : l'.entries = l.entries) (hslab : l'.slab = l.slab)
    (hcurrent : l'.phase.current = l.phase.current) : l'.Seated where
  current id e he := by
    rw [hcurrent]
    exact h.current id e (hentries ▸ he)
  registered t id e ht he := h.registered t id e (hslab ▸ ht) (hentries ▸ he)

omit [Bincode Req] [Bincode Resp] in
theorem Seated.setConn (h : l.Seated) {conn : ClientConnection Unit Req Resp}
    (hentries : l'.entries = (l.setConn id e conn).entries)
    (hconn : l'.phase.current = some id ↔ InMiddle conn.phase)
    (hothers : ∀ id', id' ≠ id → (l'.phase.current = some id' ↔ l.phase.current = some id'))
    (hslab : ∀ t id', l'.slab t = some id' → l.slab t = some id')
    (hregistered : ∀ t, l'.slab t = some id → conn.phase ≠ .removed) : l'.Seated where
  current id' e' he' := by
    rw [hentries] at he'
    rcases setConn_entries he' with ⟨rfl, rfl⟩ | ⟨hne, he'⟩
    · exact hconn
    · rw [hothers id' hne]
      exact h.current id' e' he'
  registered t id' e' ht he' := by
    rw [hentries] at he'
    rcases setConn_entries he' with ⟨rfl, rfl⟩ | ⟨-, he'⟩
    · exact hregistered t ht
    · exact h.registered t id' e' (hslab t id' ht) he'

omit [Bincode Req] [Bincode Resp] in
theorem Seated.enter (h : l.Seated) (hslabbed : l.Slabbed) (hcur : l.phase.current = none)
    (token : Token) {phase : ConnId → LoopPhase} (hphase : ∀ id, (phase id).current = some id)
    {start : ClientConnection Unit Req Resp → ClientConnection Unit Req Resp}
    (hstart : Starts start) : (l.enter token phase start).Seated := by
  rcases enter_cases hslabbed token phase start with ⟨-, heq⟩ | ⟨id, e, -, -, -, heq⟩ <;> rw [heq]
  · exact h
  · have hmiddle : InMiddle (start e.conn).phase := by
      have := hstart.phase e.conn
      exact ⟨fun hidle => by simp [hidle, Phase.beforeDrained] at this,
        fun hremoved => by simp [hremoved, Phase.beforeDrained] at this⟩
    refine h.setConn rfl ⟨fun _ => hmiddle, fun _ => hphase id⟩ (fun id' hne => ?_)
      (fun _ _ ht => ht) fun _ _ => hmiddle.2
    simp only [hphase, hcur, Option.some.injEq, reduceCtorEq, iff_false]
    exact fun heq => hne heq.symm

omit [Bincode Req] [Bincode Resp] in
theorem enter_eq (l : EventLoop Unit Req Resp) (token : Token) (phase : ConnId → LoopPhase)
    (start : ClientConnection Unit Req Resp → ClientConnection Unit Req Resp) :
    (l.enter token phase start).slab = l.slab ∧
      ((l.enter token phase start).phase = l.phase ∨
        ∃ id, (l.enter token phase start).phase = phase id) := by
  unfold enter
  split
  · exact ⟨rfl, Or.inl rfl⟩
  · split
    · exact ⟨rfl, Or.inl rfl⟩
    · exact ⟨rfl, Or.inr ⟨_, rfl⟩⟩

/-- The loop at a connection that it leaves, or goes on with. -/
theorem AtConn.seated {w : List Tok} {a : ConnAction (RpcAction (Item Req))}
    {conn : ClientConnection Unit Req Resp} (hat : l.AtConn bytePipe w a id e conn) (h : l.Seated)
    (hentries : l'.entries = (l.setConn id e conn).entries)
    (hslab : ∀ t id', l'.slab t = some id' → l.slab t = some id')
    (hregistered : ∀ t, l'.slab t = some id → conn.phase ≠ .removed)
    (hnext : l'.phase.current = none ∧ ¬ InMiddle conn.phase ∨
      l'.phase = l.phase ∧ InMiddle conn.phase) : l'.Seated := by
  have hcur := hat.current
  rcases hnext with ⟨hnone, hleft⟩ | ⟨hsame, hmiddle⟩
  · refine h.setConn hentries ⟨fun hcur' => ?_, fun hmiddle => absurd hmiddle hleft⟩
      (fun id' hne => ?_) hslab hregistered
    · rw [hnone] at hcur'
      cases hcur'
    · simp only [hnone, hcur, Option.some.injEq, reduceCtorEq, false_iff]
      exact fun heq => hne heq.symm
  · exact h.setConn hentries ⟨fun _ => hmiddle, fun _ => hsame ▸ hcur⟩ (fun id' _ => by rw [hsame])
      hslab hregistered

theorem step_seated {a : LoopAction Unit Req} (hslabbed : l.Slabbed) (h : l.Seated)
    (hs : l.step bytePipe a = some l') : l'.Seated := by
  cases step_cases hs with
  | polled hph | handled hph | popped hph =>
      exact h.congr rfl rfl (by simp [hph, LoopPhase.current])
  | refused | pushedWake | lostWake | pushedRequest | rung => exact h.congr rfl rfl rfl
  | lostRequest => exact h
  | @event token readable es hph =>
      have hevents : ({ l with phase := .events es }).Seated :=
        h.congr rfl rfl (by simp [hph, LoopPhase.current])
      exact hevents.enter (hslabbed.leave _ (by simp) rfl) rfl token (fun _ => rfl)
        (starts_handleEvent readable)
  | @woken _ token requests hph =>
      have hpopped : ({ l with requests }).Seated := h.congr rfl rfl rfl
      exact hpopped.enter (hslabbed.congr rfl rfl rfl) (by simp [hph, LoopPhase.current]) token
        (fun _ => rfl) starts_handleWake
  | stopped =>
      refine ⟨fun id e he => ?_, fun _ _ _ ht => by cases ht⟩
      obtain ⟨e', -, rfl⟩ := Option.map_eq_some_iff.mp he
      simp [LoopPhase.current, InMiddle, Connection.close]
  | @bound _ _ id token hph _ hid =>
      have hcur : l.phase.current = none := by simp [hph, LoopPhase.current]
      refine ⟨fun id' e' he' => ?_, fun t id' e' ht he' => ?_⟩
      · rcases Slab.insert_cases he' with ⟨rfl, rfl⟩ | ⟨-, he'⟩
        · simp [hcur, InMiddle, Connection.new]
        · exact h.current id' e' he'
      · rcases Slab.insert_cases he' with ⟨rfl, rfl⟩ | ⟨hne, he'⟩
        · simp [Connection.new]
        · rcases Slab.insert_cases ht with ⟨-, heq⟩ | ⟨-, ht⟩
          · exact absurd heq hne
          · exact h.registered t id' e' ht he'
  | left hat hph =>
      refine hat.seated h rfl (fun _ _ ht => ht) (fun _ _ => by simp [hph])
        (Or.inl ⟨(LoopPhase.next_of_current hat.current).1, fun hm => hm.1 hph⟩)
  | @removed _ _ id e _ hat hph =>
      refine hat.seated h rfl (fun _ _ ht => (Slab.of_remove ht).2) (fun t ht => ?_)
        (Or.inl ⟨(LoopPhase.next_of_current hat.current).1, fun hm => hm.2 hph⟩)
      -- it was at its token only
      obtain ⟨hne, ht⟩ := Slab.of_remove ht
      obtain ⟨e', he', htoken⟩ := hslabbed.registered t id ht
      rw [hat.entry] at he'
      cases he'
      exact absurd htoken.symm hne
  | stayed hat hidle hremoved =>
      exact hat.seated h rfl (fun _ _ ht => ht) (fun _ _ => hremoved)
        (Or.inr ⟨rfl, hidle, hremoved⟩)
  | @caller id a e conn he _ hstep =>
      have hph := (clientStep_other id hstep).1
      exact h.setConn rfl (hph ▸ h.current id e he) (fun _ _ => Iff.rfl) (fun _ _ ht => ht)
        fun t ht => hph ▸ h.registered t id e ht he

/-! ## The connections there have been -/

omit [Bincode Req] [Bincode Resp] in
theorem setConn_isSome {conn : ClientConnection Unit Req Resp} {id' : ConnId}
    (he : l.entries id' = some e) :
    ((l.setConn id' e conn).entries id).isSome = (l.entries id).isSome := by
  by_cases hid : id = id'
  · subst hid
    simp [setConn, he]
  · simp [setConn, hid]

omit [Bincode Req] [Bincode Resp] in
theorem enter_isSome (token : Token) (phase : ConnId → LoopPhase)
    (start : ClientConnection Unit Req Resp → ClientConnection Unit Req Resp) :
    ((l.enter token phase start).entries id).isSome = (l.entries id).isSome := by
  unfold enter
  split
  · rfl
  · split
    · rfl
    · exact setConn_isSome ‹_›

theorem step_isSome {a : LoopAction Unit Req} (hs : l.step bytePipe a = some l') (id : ConnId) :
    (l'.entries id).isSome = (l.entries id).isSome ∨
      (l'.entries id).isSome = true ∧ ∃ token, a = .popRequest (some (id, token)) := by
  cases step_cases hs with
  | polled | handled | popped | refused | pushedWake | lostWake | pushedRequest | lostRequest
  | rung => exact Or.inl rfl
  | event | woken => exact Or.inl (enter_isSome ..)
  | stopped => exact Or.inl Option.isSome_map
  | @bound _ _ id' token =>
      by_cases hid : id = id'
      · exact Or.inr ⟨by simp [hid], token, by rw [hid]⟩
      · exact Or.inl (by simp [hid])
  | left hat | removed hat | stayed hat => exact Or.inl (setConn_isSome hat.entry)
  | caller he => exact Or.inl (setConn_isSome he)

theorem step_entries {a : LoopAction Unit Req} (hs : l.step bytePipe a = some l')
    (h : (l.entries id).isSome = true) : (l'.entries id).isSome = true := by
  rcases step_isSome hs id with heq | ⟨hsome, -⟩
  · rw [heq, h]
  · exact hsome

/-- What is owed is owed by a call on a connection. -/
theorem step_owing {a : LoopAction Unit Req} {i : CallId} (hs : l.step bytePipe a = some l')
    (hi : (id, i) ∈ l'.owing) : (id, i) ∈ l.owing ∨ (l.entries id).isSome = true := by
  cases step_cases hs with
  | polled | handled | popped | refused | pushedRequest | lostRequest | rung | stopped | bound
  | left | removed | stayed => exact Or.inl hi
  | event | woken =>
      unfold enter at hi
      split at hi
      · exact Or.inl hi
      · split at hi <;> exact Or.inl hi
  | @caller id' a e conn he =>
      rcases List.mem_append.mp hi with hi | hi
      · exact Or.inl hi
      · unfold owed at hi
        split at hi
        · split at hi
          · obtain ⟨rfl, -⟩ := Prod.mk.inj (List.mem_singleton.mp hi)
            exact Or.inr (by rw [he]; rfl)
          · cases hi
        · cases hi
  | pushedWake | lostWake => exact Or.inl (List.mem_of_mem_erase hi)

end EventLoop

end Audioipc

import Audioipc.SharedLoop

/-!
# The steps of calls and loop

Every step of a call on a handle and every step of the loop keep
`SharedLoop.Inv`. A step of a call changes that call and at most adds to or
takes from the lists its request is in (`CallsOk.frame`); a popped request
leaves the queue for the slab or is dropped (`Inv.popped`); the drop of the
queue changes the calls of all requests that are in it (`dropQueue_inv`).
-/

namespace Audioipc

namespace SharedLoop

variable {l l' : SharedLoop} {id : RequestId} {c c' : HandleCall}

/-! ## The steps of the calls -/

theorem Inv.setCall (h : l.Inv) (hc : l.calls id = some c) (hkind : c'.kind = c.kind)
    (hok : l.CallOk id c') : (l.setCall id c').Inv where
  calls := h.calls.frame
    ⟨fun _ hne => Function.update_of_ne hne .., fun _ _ => Iff.rfl, fun _ _ hin => hin,
      fun _ _ => Iff.rfl, fun _ _ _ ht => ht, fun _ hin => hin⟩
    (Function.update_self ..)
    ⟨hok.pushing, hok.entered, hok.channel, hok.pipe, hok.waits, hok.refused, hok.owned, hok.queued,
      hok.connected, hok.sent, hok.unsent, hok.unanswered, hok.returned⟩
    rfl (h.calls.lt hc) h.calls.nodup
  ordered := h.ordered.congr (sameKinds_setCall hc hkind) rfl rfl rfl
    (h.ordered.order.imp (fun hall => hall) And.left) fun hruns => hruns
  registered := ⟨h.registered.slab, h.registered.registry, h.registered.inserted,
    h.registered.dropped⟩
  alive := h.alive

/-- The queue goes, if the last reference has gone. -/
theorem dropQueue_inv (hcalls : l.CallsOk) (hordered : l.Ordered) (hregistered : l.Registered) :
    l.dropQueue.Inv := by
  unfold dropQueue
  split
  · rename_i hzero
    have hcase : ∀ id c, (if id ∈ l.queue then (l.calls id).map .lost else l.calls id) = some c →
        ∃ c₀, l.calls id = some c₀ ∧ (id ∈ l.queue ∧ c = c₀.lost ∨ id ∉ l.queue ∧ c = c₀) := by
      intro id c hc
      split at hc
      · rename_i hin
        obtain ⟨c₀, hc₀, rfl⟩ := Option.map_eq_some_iff.mp hc
        exact ⟨c₀, hc₀, Or.inl ⟨hin, rfl⟩⟩
      · rename_i hout
        exact ⟨c, hc, Or.inr ⟨hout, rfl⟩⟩
    have hsome : ∀ id, (l.calls id).isSome →
        (if id ∈ l.queue then (l.calls id).map .lost
          else l.calls id : Option HandleCall).isSome := by
      intro id hid
      split
      · rwa [Option.isSome_map]
      · exact hid
    refine ⟨⟨fun id c hc => ?_, fun id hle => ?_, fun id hin => hsome id (hcalls.pushing id hin),
      fun id hin => hsome id (hcalls.entered id hin), hcalls.nodup⟩, ?_, ?_, fun _ => rfl⟩
    · obtain ⟨c₀, hc₀, ⟨hin, rfl⟩ | ⟨hout, rfl⟩⟩ := hcase id c hc
      · have hok := hcalls.ok id c₀ hc₀
        refine ⟨hok.pushing, hok.entered, nofun, fun hp => absurd rfl hp, nofun, fun _ => rfl,
          nofun, nofun, nofun, nofun, ?_, nofun, ?_⟩
        · intro hb _
          -- what is in the queue was pushed
          have hentered : id ∈ l.entered := by
            rcases hordered.order with hall | ⟨-, hnil, -⟩
            · rw [hall]
              exact List.mem_append_right _ hin
            · rw [hnil] at hin
              cases hin
          exact absurd hentered (hok.entered hb)
        · intro r hr hkind
          have hph : c₀.phase = .returned r := hr
          have hawaits := (hok.unanswered hin hkind).2
          rw [hph] at hawaits
          cases hawaits
      · have hok := hcalls.ok id c hc₀
        exact ⟨hok.pushing, hok.entered, hok.channel, hok.pipe,
          fun hr ha => absurd (hok.waits hr ha) hout, hok.refused, hok.owned,
          fun hp => absurd (hok.queued hp) hout, hok.connected, hok.sent, hok.unsent, nofun,
          hok.returned⟩
    · dsimp only
      rw [hcalls.fresh id hle]
      split <;> rfl
    · have hkinds : ∀ id, l.NoShutdown id → SharedLoop.NoShutdown { l with
          queue := []
          calls := fun id => if id ∈ l.queue then (l.calls id).map .lost else l.calls id } id := by
        intro id hno
        refine hno.of_kind fun c hc => ?_
        obtain ⟨c₀, hc₀, ⟨-, rfl⟩ | ⟨-, rfl⟩⟩ := hcase id c hc <;> exact ⟨_, hc₀, rfl⟩
      refine ⟨hordered.nodup, Or.inr ⟨hzero, rfl, ?_⟩,
        fun id hin => hkinds id (hordered.before id hin),
        fun hruns id hin => hkinds id (hordered.last hruns id hin)⟩
      rcases hordered.order with hall | ⟨-, -, hbefore⟩
      · exact ⟨l.queue, hall.symm⟩
      · exact hbefore
    · exact ⟨hregistered.slab, hregistered.registry, hregistered.inserted, hregistered.dropped⟩
  · rename_i hpos
    exact ⟨hcalls, hordered, hregistered, fun hzero => absurd hzero hpos⟩

theorem upgrade_inv (h : l.Inv) (hc : l.calls id = some c) (hph : c.phase = .start) :
    (l.upgrade id c).Inv := by
  obtain ⟨kind, phase, reply, place⟩ := c
  cases hph
  have hok := h.calls.ok id _ hc
  unfold upgrade
  split
  · rename_i hpos
    have hnot : id ∉ l.pushing := fun hin => nomatch hok.pushing.mp hin
    refine ⟨h.calls.frame ⟨fun _ hne => Function.update_of_ne hne .., ?_,
      fun _ _ hin => hin, fun _ _ => Iff.rfl, fun _ _ _ ht => ht, fun _ hin => hin⟩
      (Function.update_self ..) ?_ rfl (h.calls.lt hc) (List.nodup_cons.mpr ⟨hnot, h.calls.nodup⟩),
      h.ordered.congr (sameKinds_setCall hc rfl) rfl rfl rfl ?_ fun hruns => hruns,
      ⟨h.registered.slab, h.registered.registry, h.registered.inserted, h.registered.dropped⟩, ?_⟩
    · intro id' hne
      simp [hne]
    · exact ⟨⟨fun _ => rfl, fun _ => List.mem_cons_self ..⟩, hok.entered, hok.channel, hok.pipe,
        nofun, nofun, fun _ => rfl, hok.queued, hok.connected, hok.sent, hok.unsent,
        fun hq hk => (nomatch (hok.unanswered hq hk).2), nofun⟩
    · rcases h.ordered.order with hall | ⟨hzero, -⟩
      · exact Or.inl hall
      · exact absurd hzero (Nat.ne_of_gt hpos)
    · intro hzero
      exact absurd hzero (Nat.ne_of_gt (strong_pos_of_mem (List.mem_cons_self ..)))
  · refine h.setCall hc rfl ⟨hok.pushing, nofun, nofun, fun hp => absurd rfl hp, nofun, nofun,
      nofun, nofun, nofun, nofun, nofun, fun hq hk => (nomatch (hok.unanswered hq hk).2), ?_⟩
    rintro r ⟨⟩ hkind
    cases hkind
    exact Or.inr ⟨rfl, rfl⟩

/-- As long as there is a reference, nothing that was pushed is lost. -/
theorem Ordered.order_of_strong (h : l.Ordered) (hpos : 0 < l.strong) :
    l.entered = l.handled ++ l.queue := by
  rcases h.order with hall | ⟨hzero, -⟩
  · exact hall
  · exact absurd hzero (Nat.ne_of_gt hpos)

theorem push_inv (h : l.Inv) (hc : l.calls id = some c) (hph : c.phase = .upgraded) :
    (l.push id c).Inv := by
  obtain ⟨kind, phase, reply, place⟩ := c
  cases hph
  have hok := h.calls.ok id _ hc
  have hin : id ∈ l.pushing := hok.pushing.mpr rfl
  have hpos := strong_pos_of_mem hin
  unfold push
  split
  · have horder := h.ordered.order_of_strong hpos
    have hnew : id ∉ l.entered := hok.entered rfl
    have hlast : id ∈ l.queue ++ [id] := List.mem_append_right _ (List.mem_singleton_self id)
    have hkinds : SameKinds l
        (l.setCall id (HandleCall.enqueued ⟨kind, .upgraded, reply, place⟩)) :=
      sameKinds_setCall hc rfl
    refine ⟨h.calls.frame ⟨fun _ hne => Function.update_of_ne hne .., fun _ _ => Iff.rfl,
      ?_, ?_, fun _ _ _ ht => ht, fun _ hin => hin⟩ (Function.update_self ..) ?_ rfl
      (h.calls.lt hc) h.calls.nodup, ⟨?_, Or.inl ?_, ?_, ?_⟩,
      ⟨h.registered.slab, h.registered.registry, h.registered.inserted, h.registered.dropped⟩, ?_⟩
    · intro id' hne hin'
      rcases List.mem_append.mp hin' with hold | hself
      · exact hold
      · exact absurd (List.mem_singleton.mp hself) hne
    · intro id' hne
      simp [hne]
    · refine ⟨⟨fun _ => rfl, fun _ => hin⟩, nofun, hok.channel, ?_, fun _ _ => hlast, nofun, ?_,
        fun _ => hlast, ?_, hok.sent, nofun, fun _ hk => ⟨hok.unsent rfl hk, rfl⟩, nofun⟩
      · intro hp
        refine hok.pipe fun hdropped => hp ?_
        cases hdropped
        rfl
      · intro hp
        cases place <;> cases hp
      · intro hp
        refine hok.connected ?_
        cases place <;> cases hp
        rfl
    · exact List.nodup_append.mpr ⟨h.ordered.nodup, List.nodup_singleton _, fun a ha b hb heq =>
        hnew (List.mem_singleton.mp hb ▸ heq ▸ ha)⟩
    · show l.entered ++ [id] = l.handled ++ (l.queue ++ [id])
      rw [horder, List.append_assoc]
    · exact fun id' hin' => (h.ordered.before id' hin').of_kind (hkinds id')
    · exact fun hruns id' hin' => (h.ordered.last hruns id' hin').of_kind (hkinds id')
    · exact fun hzero => absurd hzero (Nat.ne_of_gt (strong_pos_of_mem hin))
  · exact h.setCall hc rfl ⟨⟨fun _ => rfl, fun _ => hin⟩, nofun, nofun, fun hp => absurd rfl hp,
      nofun, fun _ => rfl, nofun, nofun, nofun, nofun, nofun,
      fun hq hk => (nomatch (hok.unanswered hq hk).2), nofun⟩

theorem release_inv {ok : Bool} (h : l.Inv) (hc : l.calls id = some c)
    (hph : c.phase = .pushed ok) : (l.release id c ok).Inv := by
  obtain ⟨kind, phase, reply, place⟩ := c
  cases hph
  have hok := h.calls.ok id _ hc
  have horder := h.ordered.order_of_strong (strong_pos_of_mem (hok.pushing.mpr rfl))
  have hgone : id ∉ l.pushing.erase id := h.calls.nodup.not_mem_erase
  unfold release
  refine dropQueue_inv (h.calls.frame ⟨fun _ hne => Function.update_of_ne hne .., ?_,
    fun _ _ hin => hin, fun _ _ => Iff.rfl, fun _ _ _ ht => ht, fun _ hin => hin⟩
    (Function.update_self ..) ?_ rfl (h.calls.lt hc) (h.calls.nodup.erase _))
    (h.ordered.congr (sameKinds_setCall hc rfl) rfl rfl rfl (Or.inl horder) fun hruns => hruns)
    ⟨h.registered.slab, h.registered.registry, h.registered.inserted, h.registered.dropped⟩
  · intro id' hne
    exact List.mem_erase_of_ne hne
  · cases ok with
    | true =>
        exact ⟨⟨fun hin => absurd hin hgone, nofun⟩, nofun, hok.channel, hok.pipe,
          fun hr _ => hok.waits hr rfl, nofun, fun hp => (nomatch hok.owned hp), hok.queued,
          hok.connected, hok.sent, nofun, fun hq hk => ⟨(hok.unanswered hq hk).1, rfl⟩, nofun⟩
    | false =>
        refine ⟨⟨fun hin => absurd hin hgone, nofun⟩, nofun, hok.channel, hok.pipe, nofun, nofun,
          fun hp => (nomatch hok.owned hp), hok.queued, hok.connected, hok.sent, nofun,
          fun hq hk => (nomatch (hok.unanswered hq hk).2), ?_⟩
        rintro r ⟨⟩ hkind
        cases hkind
        exact Or.inr ⟨hok.refused rfl, rfl⟩

theorem ring_inv (h : l.Inv) (hc : l.calls id = some c) (hph : c.phase = .ringing) :
    (l.ring id c).Inv := by
  obtain ⟨kind, phase, reply, place⟩ := c
  cases hph
  have hok := h.calls.ok id _ hc
  unfold ring
  split
  · exact h.setCall hc rfl ⟨hok.pushing, nofun, hok.channel, hok.pipe, fun hr _ => hok.waits hr rfl,
      nofun, fun hp => (nomatch hok.owned hp), hok.queued, hok.connected, hok.sent, nofun,
      fun hq hk => ⟨(hok.unanswered hq hk).1, rfl⟩, nofun⟩
  · rename_i hkind
    exact h.setCall hc rfl ⟨hok.pushing, nofun, hok.channel, hok.pipe, nofun, nofun,
      fun hp => (nomatch hok.owned hp), hok.queued, hok.connected, hok.sent, nofun,
      fun _ hk => absurd hk hkind, fun _ _ hk => absurd hk hkind⟩

theorem recv_inv (h : l.Inv) (hc : l.calls id = some c) (hph : c.phase = .waiting)
    (hs : l.recv id c = some l') : l'.Inv := by
  obtain ⟨kind, phase, reply, place⟩ := c
  cases hph
  have hok := h.calls.ok id _ hc
  unfold recv at hs
  split at hs
  · cases hs
  · rename_i r hreply
    cases hs
    cases hreply
    refine h.setCall hc rfl ⟨hok.pushing, nofun, nofun, hok.pipe, nofun, nofun,
      fun hp => (nomatch hok.owned hp), hok.queued, hok.connected, hok.sent, nofun,
      fun hq hk => (nomatch (hok.unanswered hq hk).1), ?_⟩
    rintro r' ⟨⟩ -
    exact Or.inl ⟨r, rfl, rfl⟩
  · rename_i hreply
    cases hs
    cases hreply
    refine h.setCall hc rfl ⟨hok.pushing, nofun, nofun, hok.pipe, nofun, nofun,
      fun hp => (nomatch hok.owned hp), hok.queued, hok.connected, nofun, nofun,
      fun hq hk => (nomatch (hok.unanswered hq hk).1), ?_⟩
    rintro r' ⟨⟩ -
    exact Or.inr ⟨rfl, rfl⟩

/-! ## The steps of the loop -/

theorem Inv.setPhase (h : l.Inv) {phase : SharedPhase} (hruns : l.phase.runs = true)
    (hphase : phase ≠ .dropped) : ({ l with phase } : SharedLoop).Inv where
  calls := ⟨fun id c hc => by
      have hok := h.calls.ok id c hc
      exact ⟨hok.pushing, hok.entered, hok.channel, hok.pipe, hok.waits, hok.refused, hok.owned,
        hok.queued, hok.connected, hok.sent, hok.unsent, hok.unanswered, hok.returned⟩,
    h.calls.fresh, h.calls.pushing, h.calls.entered, h.calls.nodup⟩
  ordered := by
    have hpos : 0 < l.strong := strong_pos fun hdropped => by rw [hdropped] at hruns; cases hruns
    exact ⟨h.ordered.nodup, Or.inl (h.ordered.order_of_strong hpos), h.ordered.before,
      fun _ => h.ordered.last hruns⟩
  registered := ⟨h.registered.slab, h.registered.registry, h.registered.inserted,
    fun hdropped => absurd hdropped hphase⟩
  alive hzero := absurd hzero (Nat.ne_of_gt (strong_pos hphase))

theorem Inv.unslab (h : l.Inv) {conn : LoopConnection}
    (hslab : l.connections conn.token = some conn)
    (hfree : ∀ c, l.calls conn.id = some c → c.place ≠ .connection) :
    ({ l with
      connections := Function.update l.connections conn.token none
      registry := l.registry.filter (· ≠ conn) } : SharedLoop).Inv where
  calls := by
    refine ⟨fun id c hc => ?_, h.calls.fresh, h.calls.pushing, h.calls.entered, h.calls.nodup⟩
    have hok := h.calls.ok id c hc
    refine ⟨hok.pushing, hok.entered, hok.channel, hok.pipe, hok.waits, hok.refused, hok.owned,
      hok.queued, fun hplace => ?_, hok.sent, hok.unsent, hok.unanswered, hok.returned⟩
    obtain ⟨t, ht⟩ := hok.connected hplace
    refine ⟨t, ?_⟩
    have hne : t ≠ conn.token := by
      rintro rfl
      rw [hslab] at ht
      have hid : conn.id = id := by rw [Option.some.inj ht]
      exact hfree c (by rw [hid]; exact hc) hplace
    simp only [Function.update_of_ne hne, ht]
  ordered := ⟨h.ordered.nodup, h.ordered.order, h.ordered.before, h.ordered.last⟩
  registered := by
    refine ⟨fun t conn' ht => ?_, fun conn' hin => ?_, h.registered.inserted,
      fun hdropped t => ?_⟩
    · obtain ⟨hne, ht⟩ := Slab.of_remove ht
      obtain ⟨htoken, hregistry, hinserted⟩ := h.registered.slab t conn' ht
      refine ⟨htoken, List.mem_filter.mpr ⟨hregistry, ?_⟩, hinserted⟩
      have hconn : conn' ≠ conn := by
        rintro rfl
        exact hne htoken.symm
      simpa using hconn
    · obtain ⟨hregistry, hne⟩ := List.mem_filter.mp hin
      have ht := h.registered.registry conn' hregistry
      have htoken : conn'.token ≠ conn.token := by
        intro heq
        rw [heq, hslab] at ht
        obtain rfl := Option.some.inj ht
        simp at hne
      simp only [Function.update_of_ne htoken, ht]
    · by_cases ht : t = conn.token
      · rw [ht]
        simp
      · simp only [Function.update_of_ne ht, h.registered.dropped hdropped t]
  alive := h.alive

theorem handleToken_inv (h : l.Inv) (token : Token) (done : Bool) :
    (l.handleToken token done).Inv := by
  unfold handleToken
  split
  · exact h
  · rename_i conn hslab
    split
    · obtain rfl := (h.registered.slab token conn hslab).1
      unfold remove
      cases hc : l.calls conn.id with
      | none =>
          refine h.unslab hslab fun c hc' => ?_
          rw [hc] at hc'
          cases hc'
      | some c =>
          have hok := h.calls.ok conn.id c hc
          have hset : (l.setCall conn.id c.released).Inv :=
            h.setCall hc rfl ⟨hok.pushing, hok.entered, hok.channel, fun hp => absurd rfl hp,
              hok.waits, hok.refused, nofun, nofun, nofun, hok.sent, hok.unsent, hok.unanswered,
              hok.returned⟩
          refine hset.unslab hslab fun c' hc' => ?_
          simp only [SharedLoop.setCall, Function.update_self, Option.some.injEq] at hc'
          rw [← hc']
          nofun
    · exact h

theorem Inv.popped (h : l.Inv) {queue : List RequestId} (hphase : l.phase = .popping)
    (hqueue : l.queue = id :: queue) (hc : l.calls id = some c) (hkind : c'.kind = c.kind)
    {phase : SharedPhase} {connections : Slab LoopConnection}
    {registry inserted : List LoopConnection}
    (hl : l' = { l with
      phase, connections, registry, inserted, queue
      handled := l.handled ++ [id]
      calls := Function.update l.calls id (some c') })
    (hdropped : phase ≠ .dropped) (hshutdown : phase.runs = true → c.kind ≠ .shutdown)
    (hconnections : ∀ id' ≠ id, ∀ t, l.connections t = some ⟨id', t⟩ →
      connections t = some ⟨id', t⟩)
    (hinserted : l.inserted ⊆ inserted) (hregistered : l'.Registered)
    (hok : l'.CallOk id c') : l'.Inv := by
  have hpos : 0 < l.strong := strong_pos (by rw [hphase]; nofun)
  have horder := h.ordered.order_of_strong hpos
  have hkinds : SameKinds l l' := by
    rw [hl]
    exact sameKinds_setCall hc hkind
  have hrun := h.ordered.last (by rw [hphase]; rfl)
  subst hl
  refine ⟨h.calls.frame ⟨fun _ hne => Function.update_of_ne hne .., fun _ _ => Iff.rfl,
    fun _ _ hin => hin, ?_, hconnections, hinserted⟩ (Function.update_self ..) hok rfl
    (h.calls.lt hc) h.calls.nodup, ⟨h.ordered.nodup, Or.inl ?_, ?_, ?_⟩, hregistered,
    fun hzero => absurd hzero (Nat.ne_of_gt (strong_pos hdropped))⟩
  · intro id' hne
    rw [hqueue]
    simp [hne]
  · show l.entered = (l.handled ++ [id]) ++ queue
    rw [horder, hqueue, List.append_assoc]
    rfl
  · intro id' hin
    rw [List.dropLast_concat] at hin
    exact (hrun id' hin).of_kind (hkinds id')
  · intro hruns id' hin
    rcases List.mem_append.mp hin with hold | hself
    · exact (hrun id' hold).of_kind (hkinds id')
    · intro c₁ hc₁
      rw [List.mem_singleton.mp hself] at hc₁
      obtain ⟨c₀, hc₀, hkind₀⟩ := hkinds id c₁ hc₁
      rw [hc] at hc₀
      cases hc₀
      rw [hkind₀]
      exact hshutdown hruns

theorem Inv.notMem_tail (h : l.Inv) {queue : List RequestId} (hphase : l.phase = .popping)
    (hqueue : l.queue = id :: queue) : id ∉ queue := by
  have horder := h.ordered.order_of_strong (strong_pos (by rw [hphase]; nofun))
  have hnodup := h.ordered.nodup
  rw [horder, hqueue] at hnodup
  exact (List.nodup_cons.mp (List.nodup_append.mp hnodup).2.1).1

/-- The call of a request in the queue is waiting for the answer. -/
theorem answer_eq {place : Place} {r : Except IoError Token}
    (hlive : c.kind = .addConnection → c.phase.awaits = true) :
    l.answer id { c with place } r =
      l.setCall id (({ c with place } : HandleCall).answered r) := by
  unfold answer
  split
  · rename_i hkind hph
    have hawaits := hlive hkind
    rw [hph] at hawaits
    cases hawaits
  · rfl

/-- A call whose request was popped is answered; its pipe and driver are
dropped or in the slab. -/
theorem CallOk.answered (hok : l.CallOk id c) (hin : id ∈ l.queue)
    (hadds : c.kind = .addConnection ∨ c.kind = .addConnectionAsync)
    (hpushing : l'.pushing = l.pushing) (hentered : l'.entered = l.entered)
    (hout : id ∉ l'.queue) (hinserted : l.inserted ⊆ l'.inserted) {place : Place}
    (hplace : place = .dropped ∨ place = .connection ∧ ∃ t, l'.connections t = some ⟨id, t⟩)
    {r : Except IoError Token}
    (hr : ∀ t, r = .ok t → (⟨id, t⟩ : LoopConnection) ∈ l'.inserted) :
    l'.CallOk id (({ c with place } : HandleCall).answered r) := by
  obtain ⟨kind, phase, reply, place₀⟩ := c
  have hcaller : place ≠ .caller := by rcases hplace with rfl | ⟨rfl, -⟩ <;> nofun
  have hqueue : place ≠ .queue := by rcases hplace with rfl | ⟨rfl, -⟩ <;> nofun
  have hconnected : place = .connection → ∃ t, l'.connections t = some ⟨id, t⟩ := by
    rintro rfl
    rcases hplace with h | ⟨-, ht⟩
    · cases h
    · exact ht
  rcases hadds with hkind | hkind <;> cases hkind
  · have hawaits : phase.awaits = true := (hok.unanswered hin rfl).2
    refine ⟨hpushing ▸ hok.pushing, hentered ▸ hok.entered, nofun, fun _ => Or.inl rfl, nofun,
      fun hph => ?_, fun hp => absurd hp hcaller, fun hp => absurd hp hqueue, hconnected,
      fun t ht => ?_, fun hb => ?_, fun hq => absurd hq hout, fun r' hph => ?_⟩
    · cases (show phase = .pushed false from hph)
      cases hawaits
    · exact hr t (Reply.sent.inj ht)
    · have hb : phase.beforePush = true := hb
      rw [HandlePhase.beforePush_of_awaits hawaits] at hb
      cases hb
    · cases (show phase = .returned r' from hph)
      cases hawaits
  · exact ⟨hpushing ▸ hok.pushing, hentered ▸ hok.entered, hok.channel, fun _ => Or.inr rfl,
      fun hp => (nomatch hok.channel hp), hok.refused, fun hp => absurd hp hcaller,
      fun hp => absurd hp hqueue, hconnected, fun t ht => hinserted (hok.sent t ht), nofun, nofun,
      nofun⟩

theorem addConnection_inv (h : l.Inv) {queue : List RequestId} (hphase : l.phase = .popping)
    (hqueue : l.queue = id :: queue) (hc : l.calls id = some c)
    (hadds : c.kind = .addConnection ∨ c.kind = .addConnectionAsync) {out : PopOutcome}
    (hs : addConnection { l with queue, handled := l.handled ++ [id] } id c out = some l') :
    l'.Inv := by
  have hok := h.calls.ok id c hc
  have hin : id ∈ l.queue := hqueue ▸ List.mem_cons_self ..
  have hout := h.notMem_tail hphase hqueue
  have hnotShutdown : c.kind ≠ .shutdown := by
    intro hkind
    rcases hadds with hk | hk <;> rw [hkind] at hk <;> cases hk
  have hkind : ∀ (place : Place) (r : Except IoError Token),
      (({ c with place } : HandleCall).answered r).kind = c.kind := by
    intro place r
    unfold HandleCall.answered
    split <;> rfl
  unfold addConnection at hs
  dsimp only at hs
  split at hs
  · cases hs
  · rename_i hvacant
    have hvacant : l.connections out.key = none := by simpa using hvacant
    split at hs
    · -- `assert_ne!(token, WAKE_TOKEN)`
      cases hs
      have hkind : c.lost.kind = c.kind := rfl
      refine h.popped hphase hqueue hc hkind rfl nofun nofun (fun _ _ _ ht => ht) (fun _ hin => hin)
        ⟨h.registered.slab, h.registered.registry, h.registered.inserted, nofun⟩ ?_
      refine ⟨hok.pushing, hok.entered, nofun, fun hp => absurd rfl hp, nofun, fun _ => rfl, nofun,
        nofun, nofun, nofun, fun hb hk => ?_, fun hq => absurd hq hout, fun r hph hk => ?_⟩
      · have hb : c.phase.beforePush = true := hb
        rw [HandlePhase.beforePush_of_awaits (hok.unanswered hin hk).2] at hb
        cases hb
      · have hawaits := (hok.unanswered hin hk).2
        rw [show c.phase = .returned r from hph] at hawaits
        cases hawaits
    · rename_i hkey
      split at hs
      · rename_i e _
        cases hs
        rw [show c.released = { c with place := .dropped } from rfl,
          answer_eq fun hk => (hok.unanswered hin hk).2]
        refine h.popped hphase hqueue hc (hkind _ _) rfl ?_ (fun _ => hnotShutdown)
          (fun _ _ _ ht => ht) (fun _ hin => hin) ?_ ?_
        · rw [hphase]
          nofun
        · exact ⟨h.registered.slab, h.registered.registry, h.registered.inserted,
            h.registered.dropped⟩
        · refine hok.answered hin hadds ?_ ?_ hout ?_ (Or.inl rfl) nofun
          · rfl
          · rfl
          · exact fun _ hin => hin
      · cases hs
        rw [answer_eq fun hk => (hok.unanswered hin hk).2]
        have hother : ∀ {t conn}, l.connections t = some conn → t ≠ out.key := by
          rintro t conn ht rfl
          rw [hvacant] at ht
          cases ht
        refine h.popped hphase hqueue hc (hkind _ _) rfl ?_ (fun _ => hnotShutdown) ?_
          (fun _ hin => List.mem_cons_of_mem _ hin) ⟨?_, ?_, ?_, ?_⟩ ?_
        · rw [hphase]
          nofun
        · intro id' _ t ht
          show Function.update l.connections out.key _ t = _
          rw [Function.update_of_ne (hother ht)]
          exact ht
        · intro t conn ht
          rcases Slab.insert_cases ht with ⟨rfl, rfl⟩ | ⟨-, ht⟩
          · exact ⟨rfl, List.mem_cons_self .., List.mem_cons_self ..⟩
          · obtain ⟨htoken, hregistry, hinserted⟩ := h.registered.slab t conn ht
            exact ⟨htoken, List.mem_cons_of_mem _ hregistry, List.mem_cons_of_mem _ hinserted⟩
        · intro conn hconn
          rcases List.mem_cons.mp hconn with rfl | hold
          · exact Function.update_self ..
          · have ht := h.registered.registry conn hold
            show Function.update l.connections out.key _ conn.token = some conn
            rw [Function.update_of_ne (hother ht)]
            exact ht
        · intro conn hconn
          rcases List.mem_cons.mp hconn with rfl | hold
          · exact hkey
          · exact h.registered.inserted conn hold
        · intro hdropped
          rw [show l.phase = .dropped from hdropped] at hphase
          cases hphase
        · refine hok.answered hin hadds ?_ ?_ hout ?_ (Or.inr ⟨rfl, out.key, ?_⟩) ?_
          · rfl
          · rfl
          · exact fun _ hin => List.mem_cons_of_mem _ hin
          · exact Function.update_self ..
          · rintro t ⟨⟩
            exact List.mem_cons_self ..

/-- A request that was popped is handled. -/
theorem handle_inv (h : l.Inv) {queue : List RequestId} (hphase : l.phase = .popping)
    (hqueue : l.queue = id :: queue) (hc : l.calls id = some c) {out : PopOutcome}
    (hs : handle { l with queue, handled := l.handled ++ [id] } id c out = some l') :
    l'.Inv := by
  have hok := h.calls.ok id c hc
  have hout := h.notMem_tail hphase hqueue
  -- a request without a pipe leaves its call alone
  have hsame : c.kind ≠ .addConnection → c.kind ≠ .addConnectionAsync →
      ∀ {phase : SharedPhase}, phase ≠ .dropped → (phase.runs = true → c.kind ≠ .shutdown) →
      ({ l with phase, queue, handled := l.handled ++ [id] } : SharedLoop).Inv := by
    intro hadd hasync phase hdropped hshutdown
    have hplace : c.place = .dropped := by
      by_contra hp
      rcases hok.pipe hp with hk | hk
      · exact hadd hk
      · exact hasync hk
    have heq : ({ l with phase, queue, handled := l.handled ++ [id] } : SharedLoop) =
        { l with
          phase
          connections := l.connections
          registry := l.registry
          inserted := l.inserted
          queue
          handled := l.handled ++ [id]
          calls := Function.update l.calls id (some c) } := by
      rw [Function.update_eq_self_iff.mpr hc.symm]
    refine h.popped hphase hqueue hc rfl heq hdropped hshutdown (fun _ _ _ ht => ht)
      (fun _ hin => hin) ⟨h.registered.slab, h.registered.registry, h.registered.inserted,
        fun hd => absurd hd hdropped⟩
      ⟨hok.pushing, hok.entered, hok.channel, hok.pipe, fun hr => absurd (hok.channel hr) hadd,
        hok.refused, fun hp => (nomatch hplace.symm.trans hp),
        fun hp => (nomatch hplace.symm.trans hp), fun hp => (nomatch hplace.symm.trans hp),
        hok.sent, hok.unsent, fun hq => absurd hq hout, hok.returned⟩
  unfold handle at hs
  split at hs
  · rename_i hkind
    exact addConnection_inv h hphase hqueue hc (Or.inl hkind) hs
  · rename_i hkind
    exact addConnection_inv h hphase hqueue hc (Or.inr hkind) hs
  · rename_i hkind
    cases hs
    exact hsame (by rw [hkind]; nofun) (by rw [hkind]; nofun) nofun nofun
  · rename_i token hkind
    cases hs
    refine handleToken_inv ?_ token out.done
    exact hsame (by rw [hkind]; nofun) (by rw [hkind]; nofun) (by rw [hphase]; nofun)
      fun _ => by rw [hkind]; nofun

theorem dropLoop_inv (h : l.Inv) (hphase : l.phase = .exited) : l.dropLoop.Inv := by
  have hpos : 0 < l.strong := strong_pos (by rw [hphase]; nofun)
  have hsome : ∀ id, (l.calls id).isSome → ((l.calls id).map HandleCall.disconnected).isSome := by
    intro id hid
    rwa [Option.isSome_map]
  unfold dropLoop
  refine dropQueue_inv ⟨fun id c hc => ?_, fun id hle => ?_,
    fun id hin => hsome id (h.calls.pushing id hin),
    fun id hin => hsome id (h.calls.entered id hin), h.calls.nodup⟩
    (h.ordered.congr ?_ rfl rfl rfl (Or.inl (h.ordered.order_of_strong hpos)) nofun)
    ⟨nofun, nofun, h.registered.inserted, fun _ _ => rfl⟩
  · obtain ⟨c₀, hc₀, rfl⟩ := Option.map_eq_some_iff.mp hc
    have hok := h.calls.ok id c₀ hc₀
    unfold HandleCall.disconnected
    split
    · exact ⟨hok.pushing, hok.entered, hok.channel, fun hp => absurd rfl hp, hok.waits, hok.refused,
        nofun, nofun, nofun, hok.sent, hok.unsent, hok.unanswered, hok.returned⟩
    · rename_i hplace
      exact ⟨hok.pushing, hok.entered, hok.channel, hok.pipe, hok.waits, hok.refused, hok.owned,
        hok.queued, fun hp => absurd hp hplace, hok.sent, hok.unsent, hok.unanswered, hok.returned⟩
  · show (l.calls id).map HandleCall.disconnected = none
    rw [h.calls.fresh id hle]
    rfl
  · intro id c hc
    obtain ⟨c₀, hc₀, rfl⟩ := Option.map_eq_some_iff.mp hc
    refine ⟨c₀, hc₀, ?_⟩
    unfold HandleCall.disconnected
    split <;> rfl

theorem newCall_ok (hpushing : id ∉ l.pushing) (hentered : id ∉ l.entered) (hqueue : id ∉ l.queue)
    (kind : CallKind) : l.CallOk id (.new kind) := by
  have hholds : id ∈ l.pushing ↔ HandlePhase.start.holds = true :=
    ⟨fun hin => absurd hin hpushing, nofun⟩
  cases kind with
  | addConnection =>
      exact ⟨hholds, fun _ => hentered, fun _ => rfl, fun _ => Or.inl rfl, nofun, nofun,
        fun _ => rfl, nofun, nofun, nofun, fun _ _ => rfl, fun hq => absurd hq hqueue, nofun⟩
  | addConnectionAsync =>
      exact ⟨hholds, fun _ => hentered, nofun, fun _ => Or.inr rfl, nofun, nofun, fun _ => rfl,
        nofun, nofun, nofun, nofun, nofun, nofun⟩
  | shutdown | wakeConnection =>
      exact ⟨hholds, fun _ => hentered, nofun, fun hp => absurd rfl hp, nofun, nofun, nofun, nofun,
        nofun, nofun, nofun, nofun, nofun⟩

theorem call_inv (h : l.Inv) (kind : CallKind) : SharedLoop.Inv { l with
    calls := Function.update l.calls l.next (some (.new kind)), next := l.next + 1 } := by
  have hnone : l.calls l.next = none := h.calls.fresh _ (Nat.le_refl _)
  have hpushing : l.next ∉ l.pushing := fun hin => by
    have := h.calls.pushing _ hin
    rw [hnone] at this
    cases this
  have hentered : l.next ∉ l.entered := fun hin => by
    have := h.calls.entered _ hin
    rw [hnone] at this
    cases this
  have hqueue : l.next ∉ l.queue := by
    intro hin
    rcases h.ordered.order with hall | ⟨-, hnil, -⟩
    · exact hentered (hall ▸ List.mem_append_right _ hin)
    · rw [hnil] at hin
      cases hin
  have hold : ∀ id c, Function.update l.calls l.next (some (.new kind)) id = some c →
      (id = l.next ∧ c = .new kind) ∨ (id ≠ l.next ∧ l.calls id = some c) := fun _ _ hc =>
    Slab.insert_cases hc
  have hsome : ∀ id, (l.calls id).isSome →
      (Function.update l.calls l.next (some (.new kind)) id).isSome := by
    intro id hid
    by_cases hne : id = l.next
    · rw [hne, Function.update_self]; rfl
    · rwa [Function.update_of_ne hne]
  have hkinds : ∀ id ∈ l.handled, l.NoShutdown id → SharedLoop.NoShutdown { l with
      calls := Function.update l.calls l.next (some (.new kind)), next := l.next + 1 } id := by
    intro id hin hno c hc
    rcases hold id c hc with ⟨rfl, -⟩ | ⟨-, hc⟩
    · rcases h.ordered.order with hall | ⟨-, -, hbefore⟩
      · exact absurd (hall ▸ List.mem_append_left _ hin) hentered
      · exact absurd (hbefore.subset hin) hentered
    · exact hno c hc
  refine ⟨⟨fun id c hc => ?_, fun id hle => ?_, fun id hin => hsome id (h.calls.pushing id hin),
    fun id hin => hsome id (h.calls.entered id hin), h.calls.nodup⟩,
    ⟨h.ordered.nodup, h.ordered.order,
      fun id hin => hkinds id (List.dropLast_subset _ hin) (h.ordered.before id hin),
      fun hruns id hin => hkinds id hin (h.ordered.last hruns id hin)⟩,
    ⟨h.registered.slab, h.registered.registry, h.registered.inserted, h.registered.dropped⟩,
    h.alive⟩
  · rcases hold id c hc with ⟨rfl, rfl⟩ | ⟨-, hc⟩
    · refine newCall_ok ?_ ?_ ?_ kind
      · exact hpushing
      · exact hentered
      · exact hqueue
    · have hok := h.calls.ok id c hc
      exact ⟨hok.pushing, hok.entered, hok.channel, hok.pipe, hok.waits, hok.refused, hok.owned,
        hok.queued, hok.connected, hok.sent, hok.unsent, hok.unanswered, hok.returned⟩
  · have hlt : l.next < id := hle
    show Function.update l.calls l.next _ id = none
    rw [Function.update_of_ne (Nat.ne_of_gt hlt)]
    exact h.calls.fresh id (Nat.le_of_lt hlt)

theorem step_inv (h : l.Inv) {a : SharedAction} (hs : l.step a = some l') : l'.Inv := by
  cases step_cases hs with
  | @called kind => exact call_inv h kind
  | upgraded hc hph => exact upgrade_inv h hc hph
  | pushed hc hph => exact push_inv h hc hph
  | released hc hph => exact release_inv h hc hph
  | rung hc hph => exact ring_inv h hc hph
  | received hc hph hrecv => exact recv_inv h hc hph hrecv
  | polled hph | handledEvents hph | woken hph | emptied hph =>
      exact h.setPhase (by rw [hph]; rfl) nofun
  | @event done token es hph =>
      have hnext : ({ l with phase := .events es } : SharedLoop).Inv :=
        h.setPhase (by rw [hph]; rfl) nofun
      exact handleToken_inv hnext token done
  | popped hph hqueue hc hhandle => exact handle_inv h hph hqueue hc hhandle
  | dropped hph => exact dropLoop_inv h hph

theorem runs_inv {as : List SharedAction} (hrun : Lts.runs step new as = some l) : l.Inv :=
  Lts.runs_invariant (fun _ _ _ h hs => step_inv h hs) inv_new hrun

end SharedLoop

end Audioipc

import Audioipc.Lts
import Audioipc.Sys

/-!
# What a connection is interested in

The registration of a `Connection` with the poll, for any driver and any
pipe. `handle_event` and `handle_wake` are functions here; what the system,
the driver and the registry return in a call is an argument, and `none`
means that the call does not return with it.

The interest is only changed in `update_registration`. `sendOutbound_spec`
is the core of the argument: each of the four ways out of the loop of
`send_outbound` that does not end the connection leaves WRITABLE set exactly
if something is left to send. READABLE is only cleared on the way to
`Ok(true)`.
-/

namespace Audioipc

namespace Poll

/-- `mio::Interest` is never empty. -/
structure Interest where
  readable : Bool
  writable : Bool
  nonempty : (readable || writable) = true
deriving Repr, DecidableEq

namespace Interest

def READABLE : Interest := ⟨true, false, rfl⟩

def WRITABLE : Interest := ⟨false, true, rfl⟩

def add (i j : Interest) : Interest :=
  ⟨i.readable || j.readable, i.writable || j.writable, by
    have := i.nonempty
    cases hr : i.readable <;> simp_all⟩

/-- `none` if nothing is left. -/
def remove (i j : Interest) : Option Interest :=
  let readable := i.readable && !j.readable
  let writable := i.writable && !j.writable
  if h : (readable || writable) = true then some ⟨readable, writable, h⟩ else none

end Interest

/-- A call of `reregister`, or of `deregister` if nothing is requested, with
what was registered before it. -/
structure RegistryCall where
  registered : Option Interest
  requested : Option Interest
deriving Repr, DecidableEq

structure Registry where
  registered : Option Interest
  calls : List RegistryCall
deriving Repr, DecidableEq

/-- A call that fails leaves the registration alone. -/
def Registry.update (g : Registry) (requested : Option Interest) (r : Except IoError Unit) :
    Registry where
  registered := if r.isOk then requested else g.registered
  calls := g.calls ++ [⟨g.registered, requested⟩]

/-- The trait `Driver`, for drivers with state `D`. `E` is what the
environment chooses in a call. -/
structure DriverOps (D E : Type) where
  processInbound : E → D → ConnectionBuffer →
    Option (Exec (Except IoError Bool × D × ConnectionBuffer))
  flushOutbound : E → D → ConnectionBuffer →
    Option (Exec (Except IoError Unit × D × ConnectionBuffer))

inductive Stop where
  | error (e : IoError)
  | panic (p : Panic)
deriving Repr, DecidableEq

inductive Told where
  | recv (r : Except IoError Nat)
  | process (r : Except IoError Bool)
  | flush (r : Except IoError Unit)
  | send (r : Except IoError Nat)

/-- `stream` is that from the peer, and `log` what the calls of the connection
returned. -/
structure Connection (P D : Type) where
  io : P
  interest : Option Interest
  inbound : ConnectionBuffer
  outbound : ConnectionBuffer
  driver : D
  registry : Registry
  stream : List Tok
  log : List Told

/-- A turn of the loop of `recv_inbound`, before which `arrived` came from the
peer. -/
structure RecvTurn (E : Type) where
  arrived : List Tok
  recvMsg : Except IoError Nat
  process : E

/-- What the calls made in `handle_event` or `handle_wake` return, each at
most once but for the loops. -/
structure CallOutcome (E : Type) where
  recv : List (RecvTurn E)
  flush : E
  send : List (Except IoError Nat)
  setWritable : Except IoError Unit
  clearWritable : Except IoError Unit
  clearReadable : Except IoError Unit

namespace Connection

variable {P D E α β : Type}

/-- What a function of the connection returns, and the connection after it. -/
abbrev Returned (P D α : Type) := Option (Except Stop α × Connection P D)

/-- The operator `?`. -/
def Returned.andThen (x : Returned P D α) (f : α → Connection P D → Returned P D β) :
    Returned P D β :=
  match x with
  | none => none
  | some (.error s, c) => some (.error s, c)
  | some (.ok a, c) => f a c

/-- `registry.register` is the first call for a connection. -/
def new (io : P) (driver : D) (register : Except IoError Unit) :
    Except IoError (Connection P D) :=
  match register with
  | .error e => .error e
  | .ok () => .ok {
      io
      interest := some .READABLE
      inbound := .empty
      outbound := .empty
      driver
      registry := ⟨some .READABLE, []⟩
      stream := []
      log := [] }

def updateRegistration (c : Connection P D) (newInterest : Option Interest)
    (r : Except IoError Unit) : Returned P D Unit :=
  if newInterest ≠ c.interest then
    some (r.mapError .error,
      { c with interest := newInterest, registry := c.registry.update newInterest r })
  else some (.ok (), c)

def clearReadable (c : Connection P D) (r : Except IoError Unit) : Returned P D Unit :=
  c.updateRegistration (c.interest.bind (·.remove .READABLE)) r

def setWritable (c : Connection P D) (r : Except IoError Unit) : Returned P D Unit :=
  c.updateRegistration (some ((c.interest.map (·.add .WRITABLE)).getD .WRITABLE)) r

def clearWritable (c : Connection P D) (r : Except IoError Unit) : Returned P D Unit :=
  c.updateRegistration (c.interest.bind (·.remove .WRITABLE)) r

variable (pipe : PipeOps P) (ops : DriverOps D E)

def recvInbound (c : Connection P D) : List (RecvTurn E) → Returned P D Bool
  | [] => none
  | t :: ts =>
      match pipe.recvMsg c.io c.inbound t.recvMsg (c.stream ++ t.arrived) with
      | none => none
      | some (.error p) => some (.error (.panic p), c)
      | some (.ok (r, io, inbound, stream)) =>
          let c := { c with io, inbound, stream, log := c.log ++ [.recv r] }
          match r with
          | .ok 0 => some (.ok true, c)
          | .ok _ =>
              match ops.processInbound t.process c.driver c.inbound with
              | none => none
              | some (.error p) => some (.error (.panic p), c)
              | some (.ok (r, driver, inbound)) =>
                  let c := { c with driver, inbound, log := c.log ++ [.process r] }
                  match r with
                  | .ok true => some (.ok true, c)
                  | .ok false => recvInbound c ts
                  | .error e => some (.error (.error e), c)
          | .error .wouldBlock => some (.ok false, c)
          | .error .interrupted => recvInbound c ts
          | .error e => some (.error (.error e), c)

def flushOutbound (c : Connection P D) (e : E) : Returned P D Unit :=
  match ops.flushOutbound e c.driver c.outbound with
  | none => none
  | some (.error p) => some (.error (.panic p), c)
  | some (.ok (r, driver, outbound)) =>
      some (r.mapError .error, { c with driver, outbound, log := c.log ++ [.flush r] })

/-- `send_outbound` after its loop. -/
def finishSend (c : Connection P D) (clearWritable : Except IoError Unit) : Returned P D Bool :=
  if c.outbound.buf.isEmpty then
    Returned.andThen (c.clearWritable clearWritable) fun () c => some (.ok false, c)
  else some (.ok false, c)

def sendOutbound (setWritable clearWritable : Except IoError Unit) (c : Connection P D)
    (ts : List (Except IoError Nat)) : Returned P D Bool :=
  if c.outbound.buf.isEmpty then c.finishSend clearWritable
  else
    match ts with
    | [] => none
    | r :: ts =>
        match pipe.sendMsg c.io c.outbound r with
        | none => none
        | some (.error p) => some (.error (.panic p), c)
        | some (.ok (r, io, outbound, _)) =>
            let c := { c with io, outbound, log := c.log ++ [.send r] }
            match r with
            | .ok 0 => some (.ok true, c)
            | .ok _ => sendOutbound setWritable clearWritable c ts
            | .error .wouldBlock =>
                Returned.andThen (c.setWritable setWritable) fun () c => c.finishSend clearWritable
            | .error .interrupted => sendOutbound setWritable clearWritable c ts
            | .error e => some (.error (.error e), c)

/-- The common part of the two functions; `true` if a send hits EOF. -/
def flushAndSend (c : Connection P D) (out : CallOutcome E) : Returned P D Bool :=
  Returned.andThen (c.flushOutbound ops out.flush) fun () c =>
    c.sendOutbound pipe out.setWritable out.clearWritable out.send

def handleEvent (c : Connection P D) (readable : Bool) (out : CallOutcome E) : Returned P D Bool :=
  Returned.andThen (if readable then c.recvInbound pipe ops out.recv else some (.ok false, c))
    fun done c =>
      Returned.andThen (c.flushAndSend pipe ops out) fun eof c =>
        if eof then some (.ok true, c)
        else
          let done := done && c.outbound.buf.isEmpty
          if done then
            Returned.andThen (c.clearReadable out.clearReadable) fun () c => some (.ok done, c)
          else some (.ok done, c)

def handleWake (c : Connection P D) (out : CallOutcome E) : Returned P D Bool :=
  Returned.andThen (c.flushAndSend pipe ops out) fun eof c => some (.ok eof, c)

/-! ## What the parts of a call do -/

variable {pipe : PipeOps P} {ops : DriverOps D E} {c c' : Connection P D}

/-- Every call of the registry was for a change. -/
def Changes (c : Connection P D) : Prop :=
  ∀ call ∈ c.registry.calls, call.requested ≠ call.registered

structure Synced (c : Connection P D) : Prop where
  interest : c.interest = c.registry.registered
  changes : c.Changes

/-- The connection is interested in READABLE, in WRITABLE exactly if
something is left to send, and registered so. -/
structure Follows (c : Connection P D) : Prop where
  synced : c.Synced
  interest : c.interest = some ⟨true, !c.outbound.buf.isEmpty, rfl⟩

def InterestedInReadable (c : Connection P D) : Prop :=
  ∃ i, c.interest = some i ∧ i.readable = true

theorem Follows.readable (h : c.Follows) : c.InterestedInReadable := ⟨_, h.interest, rfl⟩

theorem andThen_cases {x : Returned P D α} {f : α → Connection P D → Returned P D β}
    {r : Except Stop β} (h : x.andThen f = some (r, c')) :
    (∃ s, r = .error s ∧ x = some (.error s, c')) ∨
    ∃ a c, x = some (.ok a, c) ∧ f a c = some (r, c') := by
  unfold Returned.andThen at h
  split at h
  · cases h
  · cases h
    exact Or.inl ⟨_, rfl, rfl⟩
  · exact Or.inr ⟨_, _, rfl, h⟩

/-- An update of the registration, and of nothing else. -/
structure Updated (c c' : Connection P D) (newInterest : Option Interest) (r : Except Stop Unit) :
    Prop where
  changes : c'.Changes
  outbound : c'.outbound = c.outbound
  log : c'.log = c.log
  synced : r = .ok () → c'.Synced
  interest : r = .ok () → c'.interest = newInterest

theorem updateRegistration_spec (h : c.Synced) {newInterest : Option Interest}
    {registry : Except IoError Unit} {r : Except Stop Unit}
    (hr : c.updateRegistration newInterest registry = some (r, c')) :
    Updated c c' newInterest r := by
  unfold updateRegistration at hr
  split at hr
  · rename_i hne
    cases hr
    have hchanges : ∀ call ∈ c.registry.calls ++ [⟨c.registry.registered, newInterest⟩],
        call.requested ≠ call.registered := by
      intro call hcall
      rcases List.mem_append.mp hcall with hin | hnew
      · exact h.changes call hin
      · rw [List.mem_singleton.mp hnew, ← h.interest]
        exact hne
    refine ⟨hchanges, rfl, rfl, fun hok => ⟨?_, hchanges⟩, fun _ => rfl⟩
    cases registry with
    | error e => cases hok
    | ok u => rfl
  · rename_i heq
    cases hr
    exact ⟨h.changes, rfl, rfl, fun _ => h, fun _ => (Decidable.not_not.mp heq).symm⟩

theorem setWritable_spec (h : c.Synced) (hread : c.InterestedInReadable)
    {registry : Except IoError Unit} {r : Except Stop Unit}
    (hr : c.setWritable registry = some (r, c')) : Updated c c' (some ⟨true, true, rfl⟩) r := by
  obtain ⟨i, hi, hreadable⟩ := hread
  have hadd : i.add .WRITABLE = ⟨true, true, rfl⟩ := by
    simp [Interest.add, Interest.WRITABLE, hreadable]
  unfold setWritable at hr
  rw [hi, Option.map_some, Option.getD_some, hadd] at hr
  exact updateRegistration_spec h hr

theorem clearWritable_spec (h : c.Synced) (hread : c.InterestedInReadable)
    {registry : Except IoError Unit} {r : Except Stop Unit}
    (hr : c.clearWritable registry = some (r, c')) : Updated c c' (some ⟨true, false, rfl⟩) r := by
  obtain ⟨i, hi, hreadable⟩ := hread
  have hremove : i.remove .WRITABLE = some ⟨true, false, rfl⟩ := by
    simp [Interest.remove, Interest.WRITABLE, hreadable]
  unfold clearWritable at hr
  rw [hi, Option.bind_some, hremove] at hr
  exact updateRegistration_spec h hr

/-- The log has grown by `l`. -/
def Tells (c c' : Connection P D) (l : List Told) : Prop := c'.log = c.log ++ l

theorem Tells.trans {c₁ : Connection P D} {l l' : List Told} (h : Tells c c₁ l)
    (h' : Tells c₁ c' l') : Tells c c' (l ++ l') := by
  unfold Tells at *
  rw [h', h, List.append_assoc]

structure Sends (c c' : Connection P D) (r : Except Stop Bool) : Prop where
  changes : c'.Changes
  follows : r = .ok false → c'.Follows
  told : ∃ l, Tells c c' l ∧ (r = .ok true → l.getLast? = some (.send (.ok 0)))

/-- The loop has ended because nothing is left, or WRITABLE is set. -/
theorem finishSend_spec (h : c.Synced) (hread : c.InterestedInReadable)
    (hset : c.outbound.buf.isEmpty = false → c.interest = some ⟨true, true, rfl⟩)
    {registry : Except IoError Unit} {r : Except Stop Bool}
    (hr : c.finishSend registry = some (r, c')) : Sends c c' r := by
  unfold finishSend at hr
  split at hr
  · rename_i hempty
    rcases andThen_cases hr with ⟨s, rfl, hclear⟩ | ⟨⟨⟩, c₁, hclear, hret⟩
    · have hupdated := clearWritable_spec h hread hclear
      exact ⟨hupdated.changes, nofun, [], by simp [Tells, hupdated.log], nofun⟩
    · cases hret
      have hupdated := clearWritable_spec h hread hclear
      refine ⟨hupdated.changes, fun _ => ⟨hupdated.synced rfl, ?_⟩,
        [], by simp [Tells, hupdated.log], nofun⟩
      rw [hupdated.interest rfl, hupdated.outbound]
      simp [hempty]
  · rename_i hleft
    cases hr
    have hleft : c.outbound.buf.isEmpty = false := by simpa using hleft
    refine ⟨h.changes, fun _ => ⟨h, ?_⟩, [], by simp [Tells], nofun⟩
    rw [hset hleft]
    simp [hleft]

theorem Sends.after {c₁ : Connection P D} {l : List Told} (htells : Tells c c₁ l)
    {r : Except Stop Bool} (h : Sends c₁ c' r) : Sends c c' r := by
  obtain ⟨l', htold, hlast⟩ := h.told
  refine ⟨h.changes, h.follows, l ++ l', htells.trans htold, fun hok => ?_⟩
  rw [List.getLast?_append, hlast hok]
  rfl

theorem sendOutbound_spec {setWritable clearWritable : Except IoError Unit}
    {ts : List (Except IoError Nat)} (h : c.Synced) (hread : c.InterestedInReadable)
    {r : Except Stop Bool}
    (hr : c.sendOutbound pipe setWritable clearWritable ts = some (r, c')) : Sends c c' r := by
  induction ts generalizing c with
  | nil =>
      unfold sendOutbound at hr
      split at hr
      · rename_i hempty
        exact finishSend_spec h hread (fun hne => absurd hempty (by simp [hne])) hr
      · cases hr
  | cons t ts ih =>
      unfold sendOutbound at hr
      split at hr
      · rename_i hempty
        exact finishSend_spec h hread (fun hne => absurd hempty (by simp [hne])) hr
      · dsimp only at hr
        split at hr
        · cases hr
        · cases hr
          exact ⟨h.changes, nofun, [], by simp [Tells], nofun⟩
        · rename_i res io outbound toks hsend
          -- one more call of `send_msg`, which does not touch the interest
          let c₁ : Connection P D := { c with io, outbound, log := c.log ++ [.send res] }
          have htells : Tells c c₁ [.send res] := rfl
          have hsynced : c₁.Synced := ⟨h.interest, h.changes⟩
          split at hr
          · cases hr
            exact ⟨h.changes, nofun, _, htells, fun _ => rfl⟩
          · exact (ih hsynced hread hr).after htells
          · rcases andThen_cases hr with ⟨s, rfl, hset⟩ | ⟨⟨⟩, c₂, hset, hfinish⟩
            · have hupdated := setWritable_spec (c := c₁) hsynced hread hset
              exact ⟨hupdated.changes, nofun, _, hupdated.log, nofun⟩
            · have hupdated := setWritable_spec (c := c₁) hsynced hread hset
              have hinterest := hupdated.interest rfl
              exact (finishSend_spec (hupdated.synced rfl) ⟨_, hinterest, rfl⟩
                (fun _ => hinterest) hfinish).after hupdated.log
          · exact (ih hsynced hread hr).after htells
          · cases hr
            exact ⟨h.changes, nofun, _, htells, nofun⟩

/-- What `recv_inbound` and `flush_outbound` leave alone. -/
structure Unregistered (c c' : Connection P D) : Prop where
  interest : c'.interest = c.interest
  registry : c'.registry = c.registry

theorem Unregistered.synced (h : Unregistered c c') (hs : c.Synced) : c'.Synced :=
  ⟨by rw [h.interest, h.registry]; exact hs.interest, by
    unfold Changes
    rw [h.registry]
    exact hs.changes⟩

/-- The peer has hung up, or the driver is done. -/
def Told.ends : Told → Bool
  | .recv (.ok 0) | .process (.ok true) => true
  | _ => false

theorem recvInbound_spec {ts : List (RecvTurn E)} {r : Except Stop Bool}
    (hr : c.recvInbound pipe ops ts = some (r, c')) :
    Unregistered c c' ∧
      ∃ l, Tells c c' l ∧ (r = .ok true → ∃ told ∈ l, Told.ends told = true) := by
  induction ts generalizing c with
  | nil => cases hr
  | cons t ts ih =>
      unfold recvInbound at hr
      split at hr
      · cases hr
      · cases hr
        exact ⟨⟨rfl, rfl⟩, [], by simp [Tells], nofun⟩
      · rename_i res io inbound stream hrecv
        let c₁ : Connection P D := { c with io, inbound, stream, log := c.log ++ [.recv res] }
        have htells : Tells c c₁ [.recv res] := rfl
        have hnext : ∀ c₂ {l}, Unregistered c c₂ → Tells c c₂ l →
            c₂.recvInbound pipe ops ts = some (r, c') →
            Unregistered c c' ∧
              ∃ l, Tells c c' l ∧ (r = .ok true → ∃ told ∈ l, Told.ends told = true) := by
          intro c₂ l hframe htells hrec
          obtain ⟨hframe', l', htells', hends⟩ := ih hrec
          refine ⟨⟨hframe'.interest.trans hframe.interest, hframe'.registry.trans hframe.registry⟩,
            l ++ l', htells.trans htells', fun hok => ?_⟩
          obtain ⟨told, hmem, htold⟩ := hends hok
          exact ⟨told, List.mem_append_right _ hmem, htold⟩
        split at hr
        · cases hr
          exact ⟨⟨rfl, rfl⟩, _, htells, fun _ => ⟨_, List.mem_singleton_self _, rfl⟩⟩
        · rename_i n _
          dsimp only at hr
          split at hr
          · cases hr
          · cases hr
            exact ⟨⟨rfl, rfl⟩, _, htells, nofun⟩
          · rename_i res' driver inbound' hprocess
            have htells₂ : Tells c { c₁ with
                driver, inbound := inbound', log := c₁.log ++ [.process res'] }
                [.recv (.ok n), .process res'] := by
              simp [Tells, c₁]
            split at hr
            · cases hr
              exact ⟨⟨rfl, rfl⟩, _, htells₂, fun _ =>
                ⟨_, List.mem_cons_of_mem _ (List.mem_singleton_self _), rfl⟩⟩
            · exact hnext { c₁ with
                driver, inbound := inbound', log := c₁.log ++ [.process _] } ⟨rfl, rfl⟩ htells₂ hr
            · cases hr
              exact ⟨⟨rfl, rfl⟩, _, htells₂, nofun⟩
        · cases hr
          exact ⟨⟨rfl, rfl⟩, _, htells, nofun⟩
        · exact hnext c₁ ⟨rfl, rfl⟩ htells hr
        · cases hr
          exact ⟨⟨rfl, rfl⟩, _, htells, nofun⟩

theorem flushOutbound_spec {e : E} {r : Except Stop Unit}
    (hr : c.flushOutbound ops e = some (r, c')) : Unregistered c c' ∧ ∃ l, Tells c c' l := by
  unfold flushOutbound at hr
  split at hr
  · cases hr
  · cases hr
    exact ⟨⟨rfl, rfl⟩, [], by simp [Tells]⟩
  · cases hr
    exact ⟨⟨rfl, rfl⟩, _, rfl⟩

theorem flushAndSend_spec {out : CallOutcome E} (h : c.Synced) (hread : c.InterestedInReadable)
    {r : Except Stop Bool} (hr : c.flushAndSend pipe ops out = some (r, c')) : Sends c c' r := by
  rcases andThen_cases hr with ⟨s, rfl, hflush⟩ | ⟨⟨⟩, c₁, hflush, hsend⟩
  · obtain ⟨hframe, l, htells⟩ := flushOutbound_spec hflush
    exact ⟨(hframe.synced h).changes, nofun, l, htells, nofun⟩
  · obtain ⟨hframe, l, htells⟩ := flushOutbound_spec hflush
    have hread₁ : c₁.InterestedInReadable := by
      obtain ⟨i, hi, hreadable⟩ := hread
      exact ⟨i, hframe.interest.trans hi, hreadable⟩
    exact (sendOutbound_spec (hframe.synced h) hread₁ hsend).after htells

/-! ## The two functions -/

/-- Why a connection is done: a send has hit EOF, or the peer has hung up or
the driver is done and nothing is left to send. -/
def Ends (c c' : Connection P D) : Prop :=
  ∃ l, Tells c c' l ∧ (l.getLast? = some (.send (.ok 0)) ∨
    (∃ told ∈ l, Told.ends told = true) ∧ c'.outbound.buf = [])

/-- What a call promises that leaves `c'`. -/
structure Handled (c c' : Connection P D) (r : Except Stop Bool) : Prop where
  changes : c'.Changes
  follows : r = .ok false → c'.Follows
  ends : r = .ok true → Ends c c'

theorem handleWake_spec {out : CallOutcome E} (h : c.Follows) {r : Except Stop Bool}
    (hr : c.handleWake pipe ops out = some (r, c')) : Handled c c' r := by
  rcases andThen_cases hr with ⟨s, rfl, hsend⟩ | ⟨eof, c₁, hsend, hret⟩
  · exact ⟨(flushAndSend_spec h.synced h.readable hsend).changes, nofun, nofun⟩
  · cases hret
    obtain ⟨hchanges, hfollows, l, htells, hlast⟩ := flushAndSend_spec h.synced h.readable hsend
    exact ⟨hchanges, hfollows, fun hok => ⟨l, htells, Or.inl (hlast hok)⟩⟩

/-- `handle_event` after `recv_inbound`, which returned `done`. -/
theorem handleEvent_spec {readable : Bool} {out : CallOutcome E} (h : c.Follows)
    {r : Except Stop Bool} (hr : c.handleEvent pipe ops readable out = some (r, c')) :
    Handled c c' r := by
  have hrecv : ∀ {r : Except Stop Bool} {c₁ : Connection P D},
      (if readable then c.recvInbound pipe ops out.recv else some (.ok false, c)) = some (r, c₁) →
      Unregistered c c₁ ∧
        ∃ l, Tells c c₁ l ∧ (r = .ok true → ∃ told ∈ l, Told.ends told = true) := by
    intro r c₁ hr
    split at hr
    · exact recvInbound_spec hr
    · cases hr
      exact ⟨⟨rfl, rfl⟩, [], by simp [Tells], nofun⟩
  rcases andThen_cases hr with ⟨s, rfl, hstop⟩ | ⟨done, c₁, hdone, hrest⟩
  · exact ⟨((hrecv hstop).1.synced h.synced).changes, nofun, nofun⟩
  · obtain ⟨hframe, l, htells, hends⟩ := hrecv hdone
    have hread : c₁.InterestedInReadable := ⟨_, hframe.interest.trans h.interest, rfl⟩
    rcases andThen_cases hrest with ⟨s, rfl, hstop⟩ | ⟨eof, c₂, hsend, hret⟩
    · exact ⟨(flushAndSend_spec (hframe.synced h.synced) hread hstop).changes, nofun, nofun⟩
    · obtain ⟨hchanges, hfollows, l', htells', hlast⟩ :=
        flushAndSend_spec (hframe.synced h.synced) hread hsend
      cases eof with
      | true =>
          cases hret
          refine ⟨hchanges, nofun, fun _ => ⟨l ++ l', htells.trans htells', Or.inl ?_⟩⟩
          rw [List.getLast?_append, hlast rfl]
          rfl
      | false =>
          have hfollows := hfollows rfl
          by_cases hfinished : (done && c₂.outbound.buf.isEmpty) = true
          · simp only [Bool.false_eq_true, if_false, hfinished, if_true] at hret
            rcases andThen_cases hret with ⟨s, rfl, hclear⟩ | ⟨⟨⟩, c₃, hclear, hret⟩
            · exact ⟨(updateRegistration_spec hfollows.synced hclear).changes, nofun, nofun⟩
            · cases hret
              have hupdated := updateRegistration_spec hfollows.synced hclear
              rw [Bool.and_eq_true] at hfinished
              obtain ⟨told, hmem, htold⟩ := hends (by rw [hfinished.1])
              refine ⟨hupdated.changes, nofun, fun _ => ⟨l ++ l', ?_, Or.inr ⟨?_, ?_⟩⟩⟩
              · exact hupdated.log.trans (htells.trans htells')
              · exact ⟨told, List.mem_append_left _ hmem, htold⟩
              · rw [hupdated.outbound]
                exact List.isEmpty_iff.mp hfinished.2
          · rw [Bool.not_eq_true] at hfinished
            simp only [Bool.false_eq_true, if_false, hfinished, Option.some.injEq,
              Prod.mk.injEq] at hret
            obtain ⟨rfl, rfl⟩ := hret
            exact ⟨hchanges, fun _ => hfollows, nofun⟩

/-! ## Every sequence of calls -/

end Connection

inductive ConnectionCall (E : Type) where
  | event (readable : Bool) (out : CallOutcome E)
  | wake (out : CallOutcome E)

namespace Connection

variable {P D E : Type} (pipe : PipeOps P) (ops : DriverOps D E)

def call (c : Connection P D) : ConnectionCall E → Returned P D Bool
  | .event readable out => c.handleEvent pipe ops readable out
  | .wake out => c.handleWake pipe ops out

/-- A call after which the event loop keeps the connection. -/
def step (c : Connection P D) (a : ConnectionCall E) : Option (Connection P D) :=
  match c.call pipe ops a with
  | some (.ok false, c') => some c'
  | _ => none

variable {pipe : PipeOps P} {ops : DriverOps D E} {c c' : Connection P D}

theorem call_handled (h : c.Follows) {a : ConnectionCall E} {r : Except Stop Bool}
    (hr : c.call pipe ops a = some (r, c')) : Handled c c' r := by
  cases a with
  | event readable out => exact handleEvent_spec h hr
  | wake out => exact handleWake_spec h hr

theorem step_follows (h : c.Follows) {a : ConnectionCall E}
    (hs : c.step pipe ops a = some c') : c'.Follows := by
  unfold step at hs
  split at hs
  · rename_i hr
    cases hs
    exact (call_handled h hr).follows rfl
  · cases hs

theorem new_follows {io : P} {driver : D} {register : Except IoError Unit}
    (h : new io driver register = .ok c) : c.Follows := by
  unfold new at h
  split at h
  · cases h
  · cases h
    exact ⟨⟨rfl, fun call hcall => absurd hcall List.not_mem_nil⟩, rfl⟩

/-- A connection that the event loop keeps is interested in READABLE, in
WRITABLE exactly if something is left to send, and registered so; and the
next call, whatever it returns, makes no call of the registry without a
change, keeps this if it returns `Ok(false)`, and returns `Ok(true)` only if
the connection ends. -/
theorem interest_follows {io : P} {driver : D} {register : Except IoError Unit}
    {c₀ : Connection P D} {as : List (ConnectionCall E)}
    (hnew : new io driver register = .ok c₀)
    (hrun : Lts.runs (step pipe ops) c₀ as = some c) :
    c.Follows ∧ ∀ a r c', c.call pipe ops a = some (r, c') → Handled c c' r := by
  have h : c.Follows :=
    Lts.runs_invariant (fun _ _ _ h hs => step_follows h hs) (new_follows hnew) hrun
  exact ⟨h, fun a r c' hr => call_handled h hr⟩

/-- A driver that sends back what it gets. -/
def echoDriver : DriverOps Bytes Unit where
  processInbound _ pending inbound :=
    some (.ok (.ok false, pending ++ inbound.buf, ⟨[], inbound.handles, inbound.handles_le⟩))
  flushOutbound _ pending outbound :=
    some (.ok (.ok (), [], ⟨outbound.buf ++ pending, outbound.handles, outbound.handles_le⟩))

/-- Two bytes arrive, and one of them can be sent back. -/
def echoScript : List (ConnectionCall Unit) :=
  [.event true {
    recv := [⟨[.byte 1, .byte 2], .ok 2, ()⟩, ⟨[], .error .wouldBlock, ()⟩]
    flush := ()
    send := [.ok 1, .error .wouldBlock]
    setWritable := .ok ()
    clearWritable := .ok ()
    clearReadable := .ok () }]

theorem interest_follows_run :
    ∃ c₀ c, new () [] (.ok ()) = .ok c₀ ∧
      Lts.runs (step bytePipe echoDriver) c₀ echoScript = some c ∧
      c.interest = some ⟨true, true, rfl⟩ ∧ c.outbound.buf = [2] ∧ c.Follows := by
  let c₀ : Connection Unit Bytes :=
    ⟨(), some .READABLE, .empty, .empty, [], ⟨some .READABLE, []⟩, [], []⟩
  have hnew : new () ([] : Bytes) (.ok ()) = .ok c₀ := rfl
  have hrun : (Lts.runs (step bytePipe echoDriver) c₀ echoScript).map
      (fun c => (c.interest, c.outbound.buf)) = some (some ⟨true, true, rfl⟩, [2]) := by
    decide +kernel
  obtain ⟨c, hc, heq⟩ := Option.map_eq_some_iff.mp hrun
  obtain ⟨hinterest, hleft⟩ := Prod.mk.inj heq
  exact ⟨c₀, c, hnew, hc, hinterest, hleft, (interest_follows hnew hc).1⟩

end Connection

end Poll

end Audioipc

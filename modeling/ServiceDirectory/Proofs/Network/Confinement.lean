import ServiceDirectory.Proofs.Network.Actions

/-!
# The directory is for open connections

What a connection may do depends on how far it has come.  Until the head that switches protocols has gone
through as a whole, nothing that is done to a connection has to do with the directory: the outcome does not
depend on it and leaves it as it is (`Action.SparesDirectory`).  The one action that opens the connection
subscribes it to notices (`Action.Opens`).  From the frame or the deadline that ends the exchange on,
nothing happens to the connection any more (`Network.IsOver`), whatever is left in its inbox.

`confined_run` states this of every connection at every moment of every run.  In the end the session is
closed, but not where the connection broke off: then it stays open for good (`open_after_end`).
-/

namespace ServiceDirectory

open WebSocket (Frame Violation)
open Upgrade (Handshake Outcome SwitchingHead)

/-! ## What an action has to do with the directory -/

/-- The action does the same whatever the directory, which it leaves as it is, and counts no message. -/
structure Action.SparesDirectory (action : Action) (now : Nat) (hub : Hub) (c : Connection) : Prop where
  same : ∀ directory, action.effect now { hub with directory } c =
    ({ (action.effect now hub c).1 with directory }, (action.effect now hub c).2)
  messages_eq : (action.effect now hub c).1.metrics.messages = hub.metrics.messages
  counted_eq : (action.effect now hub c).2.session.traffic.messages = c.session.traffic.messages

/-- The action opens the connection: the head that switches protocols goes through as a whole and nothing
behind it, the session is open, and all that is done to the directory is to subscribe to notices. -/
structure Action.Opens (action : Action) (now : Nat) (hub : Hub) (c : Connection) : Prop where
  waiting : c.IsWaiting
  upgraded : (action.effect now hub c).2.IsUpgraded
  output : SwitchingHead (action.effect now hub c).2.outlet.output
  directory_eq : (action.effect now hub c).1.directory = hub.directory.subscribe.2
  messages_eq : (action.effect now hub c).1.metrics.messages = hub.metrics.messages
  counted_eq : (action.effect now hub c).2.session.traffic.messages = c.session.traffic.messages

namespace Connection

variable {now : Nat} {hub : Hub} {c : Connection}

/-! ## The answer to the upgrade request -/

theorem conclude_short {outcome : Outcome} (hw : (c.outlet.write outcome.response).1 = false) :
    conclude now hub c outcome =
      finish hub { c with outlet := (c.outlet.write outcome.response).2 } (.error .brokenPipe) := by
  simp only [conclude, writeThen, write, hw, Bool.false_eq_true, if_false]

theorem conclude_refused {cause : Upgrade.Refusal}
    (hw : (c.outlet.write (Outcome.refused cause).response).1 = true) :
    conclude now hub c (.refused cause) =
      finish { hub with metrics := hub.metrics.handshakeRejected }
        { c with
          outlet := (c.outlet.write (Outcome.refused cause).response).2
          session := c.session.addSent (Outcome.refused cause).response.length }
        (.error (.handshake cause)) := by
  simp only [conclude, writeThen, write, hw, if_true]

theorem conclude_accepted {value : String}
    (hw : (c.outlet.write (Outcome.accepted value).response).1 = true) :
    conclude now hub c (.accepted value) =
      ({ hub with directory := hub.directory.subscribe.2 },
        { c with
          outlet := (c.outlet.write (Outcome.accepted value).response).2
          session := (c.session.addSent (Outcome.accepted value).response.length).becomeOpen now
          stage := .serving hub.directory.subscribe.1 }) := by
  simp only [conclude, writeThen, write, hw, if_true]

end Connection

namespace Action

variable {now : Nat} {hub : Hub} {c : Connection} {action : Action}

theorem sparesDirectory_of {metrics : Metrics} {c' : Connection}
    (h : ∀ directory, action.effect now { directory, metrics := hub.metrics } c =
      ({ directory, metrics }, c'))
    (hm : metrics.messages = hub.metrics.messages)
    (hc : c'.session.traffic.messages = c.session.traffic.messages) :
    action.SparesDirectory now hub c := by
  have hsame : action.effect now hub c = ({ directory := hub.directory, metrics }, c') :=
    h hub.directory
  refine ⟨?_, ?_, ?_⟩
  · intro directory
    rw [hsame]
    exact h directory
  · rw [hsame]
    exact hm
  · rw [hsame]
    exact hc

/-- Nothing is done to a connection that has ended, but that its client may take fewer bytes. -/
theorem effect_of_ended {result : Except Failure Unit} (hs : c.stage = .ended result)
    (action : Action) : ∃ room, ∀ now hub,
      action.effect now hub c = (hub, { c with outlet := { c.outlet with room } }) := by
  have hkept : (∀ now hub, action.effect now hub c = (hub, c)) → ∃ room, ∀ now hub,
      action.effect now hub c = (hub, { c with outlet := { c.outlet with room } }) :=
    fun h => ⟨c.outlet.room, h⟩
  cases action with
  | breakOutlet conn => exact ⟨some 0, fun _ _ => rfl⟩
  | limitOutlet conn room => exact ⟨_, fun _ _ => rfl⟩
  | connect session => exact hkept fun _ _ => rfl
  | pass milliseconds => exact hkept fun _ _ => rfl
  | receive conn bytes => exact hkept fun now hub => by simp [effect, Connection.receive, hs]
  | endInput conn => exact hkept fun now hub => by simp [effect, Connection.endInput, hs]
  | failInput conn cause => exact hkept fun now hub => by simp [effect, Connection.failInput, hs]
  | advance conn => exact hkept fun now hub => by simp [effect, Connection.advance, hs]
  | suspend conn => exact hkept fun now hub => by simp [effect, Connection.suspend, hs]
  | takeNotice conn => exact hkept fun now hub => by simp [effect, Connection.takeNotice, hs]
  | expire conn =>
    exact hkept fun now hub => by simp [effect, Network.whenDue, Connection.deadline?, hs]
  | expireAnswering conn room =>
    exact hkept fun now hub => by simp [effect, Network.whenDue, Connection.deadline?, hs]

theorem sparesDirectory_of_ended {result : Except Failure Unit} (hs : c.stage = .ended result)
    (action : Action) (now : Nat) (hub : Hub) : action.SparesDirectory now hub c := by
  obtain ⟨room, heffect⟩ := effect_of_ended hs action
  exact sparesDirectory_of (fun directory => heffect now _) rfl rfl

/-! ## Before the upgrade -/

variable {handshake : Handshake}

theorem finish_of_handshaking (hs : c.stage = .handshaking handshake) (hub : Hub)
    (result : Except Failure Unit) :
    Connection.finish hub c result =
      ({ hub with metrics := hub.metrics.connectionClosed },
        { c with session := c.session.finish, stage := .ended result }) := by
  simp only [Connection.finish, Connection.leave, hs]

/-- Time that passes, for a connection that is not yet upgraded. -/
theorem whenDue_of_handshaking (hs : c.stage = .handshaking handshake) (now : Nat)
    (f : Hub → Connection → Hub × Connection) (hub : Hub) :
    Network.whenDue now f hub c =
      if c.session.connectedAt + c.config.handshakeTimeout ≤ now then f hub c else (hub, c) := by
  simp only [Network.whenDue, Connection.deadline?, hs]

theorem sparesDirectory_of_finish (metrics : Metrics) (c' : Connection)
    (result : Except Failure Unit)
    (h : ∀ directory, action.effect now { directory, metrics := hub.metrics } c =
      Connection.finish { directory, metrics } c' result)
    (hs : c'.stage = .handshaking handshake) (hm : metrics.messages = hub.metrics.messages)
    (hc : c'.session.traffic.messages = c.session.traffic.messages) :
    action.SparesDirectory now hub c := by
  have heffect : ∀ directory, action.effect now { directory, metrics := hub.metrics } c =
      ({ directory, metrics := metrics.connectionClosed },
        { c' with session := c'.session.finish, stage := .ended result }) := by
    intro directory
    rw [h, finish_of_handshaking hs]
  exact sparesDirectory_of heffect hm hc

theorem effect_advance {after : Handshake} {rest : Bytes} {outcome : Outcome}
    (hs : c.stage = .handshaking handshake)
    (hp : handshake.process c.inbox = (some outcome, after, rest)) (conn now : Nat) (hub : Hub) :
    (advance conn).effect now hub c = Connection.conclude now hub
      { c with inbox := rest, stage := .handshaking after } outcome := by
  simp only [effect, Connection.advance, hs, hp, Option.getD_some]

/-- The request is accepted and the answer goes through as a whole. -/
theorem opens_advance {after : Handshake} {rest : Bytes} {value : String}
    (hs : c.stage = .handshaking handshake) (h : c.IsWaiting)
    (hp : handshake.process c.inbox = (some (.accepted value), after, rest))
    (hw : (c.outlet.write (Outcome.accepted value).response).1 = true) (conn now : Nat) (hub : Hub) :
    (advance conn).Opens now hub c := by
  have heffect := effect_advance hs hp conn now hub
  have hnext := heffect.trans (Connection.conclude_accepted
    (c := { c with inbox := rest, stage := .handshaking after }) hw)
  have houtcome := Handshake.outcome?_of_process hp
  have hplaced : ((advance conn).effect now hub c).2.Placed := by
    rw [heffect]
    exact Connection.placed_conclude
      (c := { c with inbox := rest, stage := .handshaking after })
      ⟨h.phase_eq, h.unopened, h.output_eq, h.cut_eq⟩ houtcome now hub
  rw [hnext] at hplaced
  refine ⟨h, ?_, ?_, ?_, ?_, ?_⟩ <;> rw [hnext]
  · exact hplaced
  · show SwitchingHead (c.outlet.write (Outcome.accepted value).response).2.output
    rw [(Outlet.write_of_true hw).1, h.output_eq, List.nil_append]
    exact Upgrade.switchingHead_of_outcome? houtcome
  · show ((c.session.addSent _).becomeOpen now).traffic.messages = c.session.traffic.messages
    unfold Session.becomeOpen
    split <;> rfl

/-- The answer to the upgrade request opens the connection or has nothing to do with the directory. -/
theorem advance_of_handshaking (hs : c.stage = .handshaking handshake) (h : c.IsWaiting)
    (conn now : Nat) (hub : Hub) :
    (advance conn).Opens now hub c ∨ (advance conn).SparesDirectory now hub c := by
  cases hp : handshake.process c.inbox with
  | mk outcome? left =>
    obtain ⟨after, rest⟩ := left
    cases outcome? with
    | none =>
      refine .inr (sparesDirectory_of ?_ rfl rfl)
      intro directory
      simp only [effect, Connection.advance, hs, hp, Option.getD_none]
    | some outcome =>
      cases hw : (c.outlet.write outcome.response).1 with
      | false =>
        refine .inr (sparesDirectory_of_finish hub.metrics
          { c with
            inbox := rest, stage := .handshaking after,
            outlet := (c.outlet.write outcome.response).2 }
          (.error .brokenPipe) ?_ rfl rfl rfl)
        intro directory
        rw [effect_advance hs hp]
        exact Connection.conclude_short hw
      | true =>
        cases outcome with
        | refused cause =>
          refine .inr (sparesDirectory_of_finish hub.metrics.handshakeRejected
            { c with
              inbox := rest, stage := .handshaking after,
              outlet := (c.outlet.write (Outcome.refused cause).response).2
              session := c.session.addSent (Outcome.refused cause).response.length }
            (.error (.handshake cause)) ?_ rfl rfl rfl)
          intro directory
          rw [effect_advance hs hp]
          exact Connection.conclude_refused hw
        | accepted value => exact .inl (opens_advance hs h hp hw conn now hub)

theorem expireAnswering_of_handshaking (hs : c.stage = .handshaking handshake) (room : Nat) :
    (∀ hub, c.expireAnswering hub room = (hub, c)) ∨
      ∃ after rest outlet, ∀ hub, c.expireAnswering hub room = Connection.finish hub
        { c with inbox := rest, stage := .handshaking after, outlet } (.error .timedOut) := by
  cases hp : handshake.process c.inbox with
  | mk outcome? left =>
    obtain ⟨after, rest⟩ := left
    cases outcome? with
    | none => exact .inl fun hub => by simp only [Connection.expireAnswering, hs, hp]
    | some outcome =>
      cases hw : (c.outlet.limited room).write outcome.response with
      | mk whole outlet =>
        cases whole with
        | true => exact .inl fun hub => by simp only [Connection.expireAnswering, hs, hp, hw]
        | false =>
          refine .inr ⟨after, rest, outlet, fun hub => ?_⟩
          simp only [Connection.expireAnswering, hs, hp, hw]

/-- **Before the upgrade** an action opens the connection or has nothing to do with the directory. -/
theorem of_handshaking (hs : c.stage = .handshaking handshake) (h : c.IsWaiting) (action : Action)
    (now : Nat) (hub : Hub) :
    action.Opens now hub c ∨ action.SparesDirectory now hub c := by
  cases action with
  | connect session => exact .inr (sparesDirectory_of (fun _ => rfl) rfl rfl)
  | pass milliseconds => exact .inr (sparesDirectory_of (fun _ => rfl) rfl rfl)
  | breakOutlet conn => exact .inr (sparesDirectory_of (fun _ => rfl) rfl rfl)
  | limitOutlet conn room => exact .inr (sparesDirectory_of (fun _ => rfl) rfl rfl)
  | receive conn bytes =>
    refine .inr (sparesDirectory_of (fun _ => rfl) rfl ?_)
    simp only [Connection.receive, hs]
    split <;> rfl
  | endInput conn =>
    refine .inr (sparesDirectory_of_finish hub.metrics c (.error .closedByPeer) ?_ hs rfl rfl)
    intro directory
    simp only [effect, Connection.endInput, hs]
  | failInput conn cause =>
    refine .inr (sparesDirectory_of_finish hub.metrics c (.error (.readFailed cause)) ?_ hs rfl rfl)
    intro directory
    simp only [effect, Connection.failInput, hs]
  | advance conn => exact advance_of_handshaking hs h conn now hub
  | suspend conn =>
    refine .inr (sparesDirectory_of ?_ rfl rfl)
    intro directory
    simp only [effect, Connection.suspend, hs]
  | takeNotice conn =>
    refine .inr (sparesDirectory_of ?_ rfl rfl)
    intro directory
    simp only [effect, Connection.takeNotice, hs, Option.getD_none]
  | expire conn =>
    by_cases hdue : c.session.connectedAt + c.config.handshakeTimeout ≤ now
    · refine .inr (sparesDirectory_of_finish hub.metrics c (.error .timedOut) ?_ hs rfl rfl)
      intro directory
      simp only [effect, whenDue_of_handshaking hs, if_pos hdue, Connection.expire, hs]
    · refine .inr (sparesDirectory_of ?_ rfl rfl)
      intro directory
      simp only [effect, whenDue_of_handshaking hs, if_neg hdue]
  | expireAnswering conn room =>
    by_cases hdue : c.session.connectedAt + c.config.handshakeTimeout ≤ now
    · rcases expireAnswering_of_handshaking hs room with hkept | ⟨after, rest, outlet, hends⟩
      · refine .inr (sparesDirectory_of ?_ rfl rfl)
        intro directory
        simp only [effect, whenDue_of_handshaking hs, if_pos hdue, hkept]
      · refine .inr (sparesDirectory_of_finish hub.metrics
          { c with inbox := rest, stage := .handshaking after, outlet } (.error .timedOut)
          ?_ rfl rfl rfl)
        intro directory
        simp only [effect, whenDue_of_handshaking hs, if_pos hdue]
        exact hends _
    · refine .inr (sparesDirectory_of ?_ rfl rfl)
      intro directory
      simp only [effect, whenDue_of_handshaking hs, if_neg hdue]

/-- **What an action on a connection has to do with the directory.** -/
theorem of_placed (h : c.Placed) (action : Action) (now : Nat) (hub : Hub) :
    c.IsUpgraded ∨ action.Opens now hub c ∨ action.SparesDirectory now hub c := by
  cases hs : c.stage with
  | handshaking handshake =>
    rw [Connection.Placed, hs] at h
    exact .inr (of_handshaking hs h action now hub)
  | serving receiver =>
    rw [Connection.Placed, hs] at h
    exact .inl h
  | ended result => exact .inr (.inr (sparesDirectory_of_ended hs action now hub))

end Action

/-! ## The end of the exchange -/

namespace Connection

/-- The actions that end the exchange of frames, and what they leave in the inbox: a close frame, a frame
that breaks a rule, whether it could be read or not, and the deadline of an idle client. -/
inductive ClosedBy (now : Nat) (c : Connection) : Action → Bytes → Prop where
  | closeFrame {conn : Nat} {receiver : Option Receiver} {frame : Frame} {rest : Bytes}
      (stage_eq : c.stage = .serving receiver)
      (read_eq : Frame.readMasked c.config.maxMessageSize c.inbox = .frame frame rest)
      (opcode_eq : frame.opcode = .close) : ClosedBy now c (.advance conn) rest
  | fault {conn : Nat} {receiver : Option Receiver} {frame : Frame} {rest : Bytes}
      {cause : Violation} (stage_eq : c.stage = .serving receiver)
      (read_eq : Frame.readMasked c.config.maxMessageSize c.inbox = .frame frame rest)
      (fault_eq : frame.fault? = some cause) : ClosedBy now c (.advance conn) rest
  | violation {conn : Nat} {receiver : Option Receiver} {rest : Bytes} {cause : Violation}
      (stage_eq : c.stage = .serving receiver)
      (read_eq : Frame.readMasked c.config.maxMessageSize c.inbox = .violation cause rest) :
      ClosedBy now c (.advance conn) rest
  | idle {conn : Nat} {receiver : Option Receiver} {deadline : Nat}
      (stage_eq : c.stage = .serving receiver) (deadline_eq : c.deadline? = some deadline)
      (due : deadline ≤ now) : ClosedBy now c (.expire conn) c.inbox

variable {now : Nat} {c : Connection} {action : Action} {rest : Bytes}

/-- The connection has ended and has these bytes left. -/
def EndsWith (c : Connection) (rest : Bytes) : Prop :=
  c.inbox = rest ∧ ∃ result, c.stage = .ended result

theorem endsWith_closing (hub : Hub) (c : Connection) (bytes : Bytes) :
    (writeThen hub c bytes fun hub c => finish hub c (.ok ())).2.EndsWith c.inbox :=
  writeThen_cases (P := fun next => next.2.EndsWith c.inbox)
    (fun _ _ _ => ⟨rfl, _, rfl⟩) (fun _ _ _ _ _ _ => ⟨rfl, _, rfl⟩)

theorem endsWith_of_closedBy (h : c.ClosedBy now action rest) (hub : Hub) :
    (action.effect now hub c).2.EndsWith rest := by
  cases h with
  | @closeFrame conn receiver frame rest hs hr ho =>
    obtain ⟨final, opcode, payload⟩ := frame
    obtain rfl : opcode = .close := ho
    simp only [Action.effect, advance, hs, hr, Option.getD_some, answerFrame]
    exact endsWith_closing hub _ _
  | fault hs hr hf =>
    simp only [Action.effect, advance, hs, hr, Option.getD_some, answerFrame_of_fault hf]
    exact ⟨rfl, _, rfl⟩
  | violation hs hr =>
    simp only [Action.effect, advance, hs, hr, Option.getD_some]
    exact ⟨rfl, _, rfl⟩
  | idle hs hd hdue =>
    simp only [Action.effect, Network.whenDue, hd, if_pos hdue, expire, hs]
    exact endsWith_closing hub _ _

end Connection

namespace Network

variable {n : Network} {conn : Nat} {c : Connection}

/-- Nothing will happen to the connection any more, but that its client may take fewer bytes: whatever is
done to it leaves the hub as it is. -/
def IsOver (n : Network) (conn : Nat) (c : Connection) : Prop :=
  ∀ later, ∃ room,
    (n.run later).connections[conn]? = some { c with outlet := { c.outlet with room } } ∧
    ∀ action, action.connection? = some conn →
      ((n.run later).act action).hub = (n.run later).hub

theorem isOver_of_ended {result : Except Failure Unit} (hc : n.connections[conn]? = some c)
    (hs : c.stage = .ended result) : n.IsOver conn c := by
  intro later
  induction later generalizing n c with
  | nil =>
    refine ⟨c.outlet.room, hc, ?_⟩
    intro action hconn
    obtain ⟨room, heffect⟩ := Action.effect_of_ended hs action
    show (n.act action).hub = n.hub
    rw [act_of_get hconn hc, heffect]
  | cons action later ih =>
    by_cases hconn : action.connection? = some conn
    · obtain ⟨room, heffect⟩ := Action.effect_of_ended hs action
      have hc₁ := getElem?_act hconn hc
      rw [heffect] at hc₁
      have hover := ih hc₁ hs
      exact hover
    · exact ih (getElem?_act_of_ne hconn hc) hs

/-! ## Every moment of every run -/

/-- What is true of a connection at a moment of a run. -/
structure Confined (n : Network) (conn : Nat) (c : Connection) : Prop where
  /-- Unless the head has gone through as a whole and the session is open, or is opened by the action, an
  action on it has nothing to do with the directory and counts no message. -/
  access : ∀ action : Action, action.connection? = some conn →
    c.IsUpgraded ∨ action.Opens n.now n.hub c ∨ action.SparesDirectory n.now n.hub c
  /-- When the exchange of frames ends, the bytes that are left are left for good. -/
  closing : ∀ (action : Action) (rest : Bytes), action.connection? = some conn →
    c.ClosedBy n.now action rest →
    ∃ c', (n.act action).connections[conn]? = some c' ∧ c'.EndsWith rest ∧
      (n.act action).IsOver conn c'
  /-- It never goes back to an earlier phase. -/
  forward : ∀ later, ∃ c', (n.run later).connections[conn]? = some c' ∧
    c.session.phase.rank ≤ c'.session.phase.rank
  /-- When it has ended, what went through to the client fits the result, and the session is in the last
  phase if and only if the connection did not break off. -/
  ended : ∀ result, c.stage = .ended result →
    c.EndedBy result ∧ (c.session.phase = .closed ↔ c.brokeOff = false)
  /-- Where it broke off it was open, and the session is still open.  That is only where a message may be
  so large that no buffer holds it, or where the clock does not reach the moment until which the connection
  was to wait. -/
  broken : c.brokeOff = true → c.IsUpgraded ∧
    (2 ^ 63 ≤ c.config.maxMessageSize.toNat + 14 ∨
      ∃ idle, c.config.idleTimeout = some idle ∧ clockEnd ≤ c.session.lastActivity + idle)

theorem confined_of_placed (hc : n.connections[conn]? = some c) (h : c.Placed) :
    n.Confined conn c where
  access := fun action _ => Action.of_placed h action n.now n.hub
  closing := by
    intro action rest hconn hclosed
    have hc' := getElem?_act hconn hc
    have hends := Connection.endsWith_of_closedBy hclosed n.hub
    obtain ⟨result, hs⟩ := hends.2
    exact ⟨_, hc', hends, isOver_of_ended hc' hs⟩
  forward := by
    intro later
    obtain ⟨c', hc', hlater⟩ := continues_run hc later
    exact ⟨c', hc', hlater.session.rank_le⟩
  ended := by
    intro result hs
    have hends := h
    rw [Connection.Placed, hs] at hends
    refine ⟨hends.2, fun hclosed => ?_, hends.1⟩
    cases hb : c.brokeOff with
    | false => rfl
    | true =>
      have hopen : c.session.phase = .opened := (h.broken hb).1.phase_eq
      rw [hclosed] at hopen
      cases hopen
  broken := h.broken

/-- A connection that was not opened by some actions had nothing to do with the directory. -/
theorem sparesDirectory_of_unopened {earlier later : List Action} {action : Action} {d : Connection}
    (hd : (n.run earlier).connections[conn]? = some d) (hplaced : d.Placed)
    (hconn : action.connection? = some conn)
    (hc : (n.run (earlier ++ action :: later)).connections[conn]? = some c)
    (hopened : c.session.openedAt = none) :
    action.SparesDirectory (n.run earlier).now (n.run earlier).hub d := by
  have hd' := getElem?_act hconn hd
  obtain ⟨c', hc', hlater⟩ := continues_run hd' later
  have hrun : (n.run (earlier ++ action :: later)) = ((n.run earlier).act action).run later :=
    run_append n earlier (action :: later)
  rw [← hrun, hc] at hc'
  obtain rfl := Option.some.inj hc'
  -- once the session is open it is known that it was
  have hnot : ∀ {session : Session}, session.Advances c.session → ¬ session.openedAt.isSome := by
    intro session hadvances hsome
    have := hadvances.stays_opened hsome
    rw [hopened] at this
    exact nomatch this
  rcases Action.of_placed hplaced action (n.run earlier).now (n.run earlier).hub with
    hupgraded | hopens | hspares
  · have hfirst :=
      Connection.continues_effect action (n.run earlier).now (n.run earlier).hub d
    exact (hnot (hfirst.trans hlater).session hupgraded.opened).elim
  · exact (hnot hlater.session hopens.upgraded.opened).elim
  · exact hspares

end Network

/-- **Only open connections have to do with the directory.**  At every moment of every run of a server,
whatever its settings and its table and whatever happens to its clients: a connection is confined; and a
connection whose session was never open has had nothing to do with the directory in the whole run. -/
theorem confined_run (config : Config) (store : Store) (actions : List Action) (conn : Nat)
    (c : Connection) (hc : ((Network.start config store).run actions).connections[conn]? = some c) :
    ((Network.start config store).run actions).Confined conn c ∧
      (c.session.openedAt = none → ∀ earlier action later d,
        actions = earlier ++ action :: later → action.connection? = some conn →
        ((Network.start config store).run earlier).connections[conn]? = some d →
        action.SparesDirectory ((Network.start config store).run earlier).now
          ((Network.start config store).run earlier).hub d) := by
  have hplaced : ∀ actions d, ((Network.start config store).run actions).connections[conn]? = some d →
      d.Placed :=
    fun actions d hd => Network.placed_run config store actions d (List.mem_of_getElem? hd)
  refine ⟨Network.confined_of_placed hc (hplaced _ _ hc), ?_⟩
  rintro hopened earlier action later d rfl hconn hd
  exact Network.sparesDirectory_of_unopened hd (hplaced _ _ hd) hconn hc hopened

/-- A client that is refused: a ping behind the head of its request stays in the inbox. -/
theorem confined_of_refused :
    let actions := [.connect 1, .receive 0 [88, 13, 10, 13, 10, 137, 128, 0, 0, 0, 0], .advance 0]
    let n := (Network.start {}).run actions
    ∃ c, n.connections[0]? = some c ∧ c.outlet.output = Transmission.refusal ∧
      c.session.phase = .closed ∧ c.inbox = [137, 128, 0, 0, 0, 0] ∧ n.Confined 0 c ∧
      ∀ earlier action later d, actions = earlier ++ action :: later →
        action.connection? = some 0 → ((Network.start {}).run earlier).connections[0]? = some d →
        action.SparesDirectory ((Network.start {}).run earlier).now
          ((Network.start {}).run earlier).hub d := by
  intro actions n
  have hfacts : (n.connections[0]?).map (fun c =>
      (c.outlet.output, c.session.phase, c.inbox, c.session.openedAt)) =
      some (Transmission.refusal, .closed, [137, 128, 0, 0, 0, 0], none) := by decide +kernel
  obtain ⟨c, hc, heq⟩ := Option.map_eq_some_iff.mp hfacts
  simp only [Prod.mk.injEq] at heq
  obtain ⟨houtput, hphase, hinbox, hopened⟩ := heq
  obtain ⟨hconfined, hspares⟩ := confined_run {} .empty actions 0 c hc
  exact ⟨c, hc, houtput, hphase, hinbox, hconfined, hspares hopened⟩

/-- Where a frame may be of any size, a client sends the beginning of one that no buffer can hold: its
connection has ended, and the session is not closed. -/
theorem open_after_end :
    let n := (Network.start boundless).run [.connect 1, .receive 0 upgradeRequest, .advance 0,
      .receive 0 boundlessFrame, .advance 0]
    n.connections.map (fun c => (c.hasEnded, c.session.phase)) = [(true, .opened)] := by
  decide +kernel

/-- A client that may be idle for longer than the clock goes on is not waited for either. -/
example :
    let session : Session := { id := 1, phase := .opened, connectedAt := 0, lastActivity := 0 }
    let c : Connection := { config := { idleTimeout := some clockEnd }, session, stage := .serving none }
    (c.suspend { directory := {} }).2.brokeOff = true := by
  decide +kernel

end ServiceDirectory

import ServiceDirectory.Proofs.Connection.Moves
import ServiceDirectory.Proofs.Connection.Transmission

/-!
# The phases of a connection

A connection only goes forward: whatever is done to it, its session gets to a later phase or stays where
it is, and what went through to the client stays there (`continues_of_move`).

What a connection is can be told from its stage (`Placed`): before the upgrade nothing has gone through;
while it serves its client the whole head has gone through and the session is open; how it has ended tells
what had happened before.  Every move keeps it so (`Placed.move`).  What can become of a connection that
waits, and of one that has ended, is said at the end (`awaits_of_move`, `move_of_ended`).
-/

namespace ServiceDirectory

open WebSocket (Frame Violation)
open Upgrade (Handshake Outcome SwitchingHead)

/-! ## Sessions go forward -/

/-- A session later on. -/
structure Session.Advances (before after : Session) : Prop where
  id_eq : after.id = before.id
  rank_le : before.phase.rank ≤ after.phase.rank
  stays_opened : before.openedAt.isSome → after.openedAt.isSome

namespace Session

theorem Advances.refl (session : Session) : session.Advances session := ⟨rfl, Nat.le_refl _, fun h => h⟩

theorem Advances.trans {a b c : Session} (hab : a.Advances b) (hbc : b.Advances c) : a.Advances c where
  id_eq := hbc.id_eq.trans hab.id_eq
  rank_le := Nat.le_trans hab.rank_le hbc.rank_le
  stays_opened := fun h => hbc.stays_opened (hab.stays_opened h)

variable (session : Session)

theorem rank_le_closed (phase : Phase) : phase.rank ≤ Phase.closed.rank := by
  cases phase <;> decide

theorem advances_close : session.Advances session.close := by
  unfold close
  split
  · exact .refl session
  · next hopen =>
    refine ⟨rfl, ?_, fun h => h⟩
    show session.phase.rank ≤ Phase.closing.rank
    cases hp : session.phase with
    | closed => exact (hopen hp).elim
    | _ => decide

theorem advances_finish : session.Advances session.finish :=
  ⟨rfl, rank_le_closed session.phase, fun h => h⟩

theorem advances_becomeOpen (now : Nat) : session.Advances (session.becomeOpen now) := by
  unfold becomeOpen
  split
  · next hp =>
    refine ⟨rfl, ?_, fun _ => rfl⟩
    show session.phase.rank ≤ Phase.opened.rank
    rw [hp]
    decide
  · exact .refl session

theorem advances_touch (now : Nat) : session.Advances (session.touch now) :=
  ⟨rfl, Nat.le_refl _, fun h => h⟩

theorem advances_addSent (n : Nat) : session.Advances (session.addSent n) :=
  ⟨rfl, Nat.le_refl _, fun h => h⟩

theorem advances_addMessage : session.Advances session.addMessage := ⟨rfl, Nat.le_refl _, fun h => h⟩

theorem advances_addReceived (n : Nat) : session.Advances (session.addReceived n) :=
  ⟨rfl, Nat.le_refl _, fun h => h⟩

end Session

/-- A write that does not go through as a whole adds a front of its bytes, which is shorter. -/
theorem Outlet.front_of_write {outlet : Outlet} {bytes : Bytes}
    (h : (outlet.write bytes).1 = false) :
    ∃ front, front <+: bytes ∧ front.length < bytes.length ∧
      (outlet.write bytes).2.output = outlet.output ++ front ∧ (outlet.write bytes).2.cut = true := by
  simp only [write] at h ⊢
  split at h
  · simp at h
  · next room _ =>
    split at h
    · simp at h
    · next hle =>
      rw [if_neg hle]
      refine ⟨bytes.take room, List.take_prefix room bytes, ?_, by simp [output], rfl⟩
      rw [List.length_take]
      omega

namespace Connection

/-! ## Connections go forward -/

/-- A connection later on. -/
structure Continues (before after : Connection) : Prop where
  config_eq : after.config = before.config
  session : before.session.Advances after.session
  output_prefix : before.outlet.output <+: after.outlet.output

variable {now : Nat} {hub : Hub} {c : Connection}

theorem Continues.refl (c : Connection) : c.Continues c := ⟨rfl, .refl _, List.prefix_refl _⟩

theorem Continues.trans {a b c : Connection} (hab : a.Continues b) (hbc : b.Continues c) :
    a.Continues c where
  config_eq := hbc.config_eq.trans hab.config_eq
  session := hab.session.trans hbc.session
  output_prefix := hab.output_prefix.trans hbc.output_prefix

/-- A step that changes only the session, the stage and the inbox. -/
theorem Continues.of_session {session : Session} (h : c.session.Advances session) (stage : Stage)
    (inbox : Bytes) : c.Continues { c with session, stage, inbox } :=
  ⟨rfl, h, List.prefix_refl _⟩

theorem continues_finish (hub : Hub) (c : Connection) (result : Except Failure Unit) :
    c.Continues (finish hub c result).2 :=
  .of_session c.session.advances_finish _ _

/-- **A write and what follows it.**  Either all bytes go through and the rest follows, or only a front of
them does and the connection ends. -/
theorem writeThen_cases {P : Hub × Connection → Prop} {bytes : Bytes}
    {next : Hub → Connection → Hub × Connection}
    (through : ∀ outlet : Outlet, outlet.output = c.outlet.output ++ bytes →
      outlet.cut = c.outlet.cut →
      P (next hub { c with outlet, session := c.session.addSent bytes.length }))
    (short : ∀ outlet : Outlet, ∀ front, front <+: bytes → front.length < bytes.length →
      outlet.output = c.outlet.output ++ front → outlet.cut = true →
      P (finish hub { c with outlet } (.error .brokenPipe))) :
    P (writeThen hub c bytes next) := by
  cases hw : (c.outlet.write bytes).1 with
  | true =>
    obtain ⟨houtput, hcut⟩ := Outlet.write_of_true hw
    simp only [writeThen, write, hw, if_true]
    exact through _ houtput hcut
  | false =>
    obtain ⟨front, hfront, hlength, houtput, hcut⟩ := Outlet.front_of_write hw
    simp only [writeThen, write, hw, Bool.false_eq_true, if_false]
    exact short _ front hfront hlength houtput hcut

theorem continues_write (c : Connection) (bytes : Bytes) : c.Continues (c.write bytes).2 := by
  have hprefix : c.outlet.output <+: (c.outlet.write bytes).2.output := by
    cases hw : (c.outlet.write bytes).1 with
    | true =>
      rw [(Outlet.write_of_true hw).1]
      exact List.prefix_append _ _
    | false =>
      obtain ⟨front, -, -, houtput, -⟩ := Outlet.front_of_write hw
      rw [houtput]
      exact List.prefix_append _ _
  refine ⟨rfl, ?_, hprefix⟩
  show c.session.Advances
    (if (c.outlet.write bytes).1 = true then c.session.addSent bytes.length else c.session)
  by_cases hw : (c.outlet.write bytes).1 = true
  · rw [if_pos hw]
    exact c.session.advances_addSent _
  · rw [if_neg hw]
    exact .refl _

theorem continues_receive (now : Nat) (c : Connection) (bytes : Bytes) :
    c.Continues (c.receive now bytes) := by
  unfold receive
  split
  · exact .refl c
  · split
    · exact .refl c
    · exact .of_session (c.session.advances_addReceived _) _ _
    · exact .of_session
        ((c.session.advances_addReceived _).trans (Session.advances_touch _ now)) _ _

theorem continues_writeThen {bytes : Bytes} {next : Hub → Connection → Hub × Connection}
    (hnext : ∀ hub c', c.Continues c' → c.Continues (next hub c').2) :
    c.Continues (writeThen hub c bytes next).2 := by
  apply writeThen_cases (P := fun next => c.Continues next.2)
  · intro outlet houtput _
    apply hnext
    refine ⟨rfl, c.session.advances_addSent _, ?_⟩
    rw [houtput]
    exact List.prefix_append _ _
  · intro outlet front _ _ houtput _
    have houtlet : c.Continues { c with outlet } := by
      refine ⟨rfl, .refl _, ?_⟩
      rw [houtput]
      exact List.prefix_append _ _
    exact houtlet.trans (continues_finish hub _ _)

theorem continues_fail (hub : Hub) (c : Connection) (cause : Violation) :
    c.Continues (fail hub c cause).2 := by
  unfold fail
  have hclose : c.Continues { c with session := c.session.close } :=
    .of_session c.session.advances_close _ _
  exact (hclose.trans (continues_write _ _)).trans (continues_finish hub _ _)

theorem continues_conclude (now : Nat) (hub : Hub) (c : Connection) (outcome : Outcome) :
    c.Continues (conclude now hub c outcome).2 := by
  apply continues_writeThen
  intro hub c' hc'
  cases outcome with
  | accepted value => exact hc'.trans (.of_session (c'.session.advances_becomeOpen now) _ _)
  | refused cause => exact hc'.trans (continues_finish _ _ _)

theorem continues_answer {text : List Char} {rest : Bytes} (hub : Hub) (c : Connection) :
    c.Continues (answer hub { c with inbox := rest } text).2 := by
  have hcounted : c.Continues { c with inbox := rest, session := c.session.addMessage } :=
    .of_session c.session.advances_addMessage _ _
  exact hcounted.trans (continues_writeThen fun _ _ h => h)

/-- **Every move goes forward.** -/
theorem continues_of_move {occurrence : Occurrence} {next : Hub × Connection}
    (h : Move now hub c occurrence next) : c.Continues next.2 := by
  have hself : ∀ (stage : Stage) (inbox : Bytes), c.Continues { c with stage, inbox } :=
    fun stage inbox => .of_session (.refl c.session) stage inbox
  have hclose : ∀ inbox : Bytes, c.Continues { c with inbox, session := c.session.close } :=
    fun inbox => .of_session c.session.advances_close c.stage inbox
  have hstay : ∀ {c' : Connection} {hub : Hub} {bytes : Bytes}, c.Continues c' →
      c.Continues (writeThen hub c' bytes stay).2 :=
    fun hc' => hc'.trans (continues_writeThen fun _ _ h => h)
  have hfinish : ∀ {c' : Connection} {hub : Hub} {bytes : Bytes}, c.Continues c' →
      c.Continues (writeThen hub c' bytes fun hub c => finish hub c (.ok ())).2 :=
    fun hc' => hc'.trans (continues_writeThen fun _ _ h => h.trans (continues_finish _ _ _))
  cases h with
  | rest => exact .refl c
  | receive bytes => exact continues_receive now c bytes
  | limit room => exact ⟨rfl, .refl _, List.prefix_refl _⟩
  | conclude _ _ => exact (hself _ _).trans (continues_conclude now hub _ _)
  | breakOff _ _ => exact hself _ _
  | violation _ _ => exact (hself _ _).trans (continues_fail hub _ _)
  | fault _ _ _ => exact (hself _ _).trans (continues_fail hub _ _)
  | ping _ _ _ => exact hstay (hself _ _)
  | pong _ _ _ => exact hself _ _
  | close _ _ _ => exact hfinish (hclose _)
  | lag _ _ _ => exact hself _ _
  | skip _ _ _ _ => exact hself _ _
  | tell _ _ _ _ => exact hstay (hself _ _)
  | leaveEarly _ => exact continues_finish hub c _
  | leave _ => exact continues_finish hub c _
  | loseEarly _ => exact continues_finish hub c _
  | lose _ => exact continues_finish hub c _
  | timeOut _ => exact continues_finish hub c _
  | @timeOutAnswering _ outcome rest _ room _ _ hw =>
    refine Continues.trans ?_ (continues_finish hub _ _)
    obtain ⟨front, -, -, houtput, -⟩ := Outlet.front_of_write (congrArg Prod.fst hw)
    rw [hw] at houtput
    refine ⟨rfl, .refl _, ?_⟩
    show c.outlet.output <+: _
    rw [houtput]
    exact List.prefix_append _ _
  | idle _ => exact hfinish (hclose _)

/-! ## What a connection is at each stage -/

/-- Nothing has gone through yet and the session is not open. -/
structure IsWaiting (c : Connection) : Prop where
  phase_eq : c.session.phase = .handshaking
  unopened : c.session.openedAt = none
  output_eq : c.outlet.output = []
  cut_eq : c.outlet.cut = false

/-- The whole head that switches protocols has gone through and the session is open. -/
structure IsUpgraded (c : Connection) : Prop where
  phase_eq : c.session.phase = .opened
  opened : c.session.openedAt.isSome
  head : ∃ head, SwitchingHead head ∧ head <+: c.outlet.output

/-- What can be told of a connection from the failure that it ended with. -/
def FailedBy (c : Connection) : Failure → Prop
  | .brokenPipe => True
  | .handshake _ => c.session.openedAt = none ∧ c.outlet.output = Transmission.refusal
  | .frame _ => c.session.openedAt.isSome
  | .timedOut =>
    c.session.openedAt = none ∧ (c.outlet.cut = false → c.outlet.output = [])
  | .closedByPeer => c.session.openedAt = none ∧ c.outlet.output = []
  | .readFailed _ => c.session.openedAt = none → c.outlet.output = []
  | .frameOutOfBounds => c.IsUpgraded ∧ 2 ^ 63 ≤ c.config.maxMessageSize.toNat + 14
  | .deadlineOutOfBounds => c.IsUpgraded ∧ c.outlastsClock = true

/-- What can be told of a connection from the result that it ended with. -/
def EndedBy (c : Connection) : Except Failure Unit → Prop
  | .ok () => c.session.openedAt.isSome
  | .error failure => c.FailedBy failure

/-- A connection is as its stage says.  Where it broke off the session is not closed. -/
def Placed (c : Connection) : Prop :=
  match c.stage with
  | .handshaking _ => c.IsWaiting
  | .serving _ => c.IsUpgraded
  | .ended result => (c.brokeOff = false → c.session.phase = .closed) ∧ c.EndedBy result

theorem IsUpgraded.continues {c' : Connection} (h : c.IsUpgraded) (hc : c.Continues c')
    (hp : c'.session.phase = c.session.phase) : c'.IsUpgraded := by
  obtain ⟨head, hhead, hprefix⟩ := h.head
  exact ⟨hp.trans h.phase_eq, hc.session.stays_opened h.opened, head, hhead,
    hprefix.trans hc.output_prefix⟩

theorem IsUpgraded.of_eq {c' : Connection} (h : c.IsUpgraded)
    (hphase : c'.session.phase = c.session.phase) (hopened : c'.session.openedAt = c.session.openedAt)
    (houtput : c'.outlet.output = c.outlet.output) : c'.IsUpgraded :=
  ⟨hphase.trans h.phase_eq, hopened ▸ h.opened, houtput ▸ h.head⟩

theorem brokeOff_of_stage {c' : Connection} (hs : c'.stage = c.stage) : c'.brokeOff = c.brokeOff := by
  simp only [brokeOff, hs]

/-- What counts of a connection that has ended. -/
theorem FailedBy.of_eq {c' : Connection} {failure : Failure} (h : c.FailedBy failure)
    (hconfig : c'.config = c.config) (hphase : c'.session.phase = c.session.phase)
    (hopened : c'.session.openedAt = c.session.openedAt)
    (hactivity : c'.session.lastActivity = c.session.lastActivity)
    (houtput : c'.outlet.output = c.outlet.output) (hcut : c'.outlet.cut = c.outlet.cut) :
    c'.FailedBy failure := by
  have hupgraded : c.IsUpgraded → c'.IsUpgraded := fun h => h.of_eq hphase hopened houtput
  have hclock : c'.outlastsClock = c.outlastsClock := by
    simp only [outlastsClock, idleDeadline?, hconfig, hactivity]
  cases failure with
  | frameOutOfBounds => exact ⟨hupgraded h.1, hconfig ▸ h.2⟩
  | deadlineOutOfBounds => exact ⟨hupgraded h.1, hclock.trans h.2⟩
  | brokenPipe => exact h
  | _ =>
    simp only [FailedBy, hopened, houtput, hcut] at h ⊢
    exact h

/-- What counts for `Placed`. -/
theorem Placed.of_eq {c' : Connection} (h : c.Placed) (hstage : c'.stage = c.stage)
    (hconfig : c'.config = c.config) (hphase : c'.session.phase = c.session.phase)
    (hopened : c'.session.openedAt = c.session.openedAt)
    (hactivity : c'.session.lastActivity = c.session.lastActivity)
    (houtput : c'.outlet.output = c.outlet.output) (hcut : c'.outlet.cut = c.outlet.cut) :
    c'.Placed := by
  cases hs : c.stage with
  | handshaking handshake =>
    simp only [Placed, hs, hstage] at h ⊢
    exact ⟨hphase.trans h.phase_eq, hopened.trans h.unopened, houtput.trans h.output_eq,
      hcut.trans h.cut_eq⟩
  | serving receiver =>
    simp only [Placed, hs, hstage] at h ⊢
    exact h.of_eq hphase hopened houtput
  | ended result =>
    simp only [Placed, hs, hstage, hphase, brokeOff_of_stage hstage] at h ⊢
    refine ⟨h.1, ?_⟩
    have he := h.2
    cases result with
    | ok value =>
      show c'.session.openedAt.isSome
      rw [hopened]
      exact he
    | error failure =>
      have hf : c.FailedBy failure := he
      exact hf.of_eq hconfig hphase hopened hactivity houtput hcut

/-- A connection ends.  Where it breaks off it does not end so. -/
theorem placed_finish (hub : Hub) {result : Except Failure Unit} (h : c.EndedBy result)
    (hends : (finish hub c result).2.brokeOff = false) : (finish hub c result).2.Placed := by
  refine ⟨fun _ => rfl, ?_⟩
  match result, h with
  | .ok (), he => exact he
  | .error failure, he =>
    cases failure with
    | frameOutOfBounds => cases hends
    | deadlineOutOfBounds => cases hends
    | _ => exact he

/-- A connection breaks off, and stays as it was. -/
theorem placed_breakOff {failure : Failure} (h : c.IsUpgraded) (hb : c.Breaks failure) (hub : Hub) :
    (breakOff hub c failure).2.Placed := by
  have hbroken : (breakOff hub c failure).2.brokeOff = true := hb.isOutOfBounds
  have hupgraded : (breakOff hub c failure).2.IsUpgraded := h.of_eq rfl rfl rfl
  have hends : (breakOff hub c failure).2.FailedBy failure := by
    cases hb with
    | frame hr => exact ⟨hupgraded, Frame.le_of_outOfBounds hr⟩
    | deadline _ ho => exact ⟨hupgraded, ho⟩
  exact ⟨fun hnot => absurd (hbroken.symm.trans hnot) (by decide), hends⟩

/-- **Only an open connection breaks off**, and only where a message may be so large that no buffer holds
it, or the clock does not reach the moment until which the connection is to wait. -/
theorem Placed.broken (h : c.Placed) (hb : c.brokeOff = true) :
    c.IsUpgraded ∧ (2 ^ 63 ≤ c.config.maxMessageSize.toNat + 14 ∨
      ∃ idle, c.config.idleTimeout = some idle ∧ clockEnd ≤ c.session.lastActivity + idle) := by
  cases hs : c.stage with
  | handshaking handshake => simp [brokeOff, hs] at hb
  | serving receiver => simp [brokeOff, hs] at hb
  | ended result =>
    simp only [Placed, brokeOff, hs] at h hb
    match result with
    | .error .frameOutOfBounds => exact ⟨h.2.1, .inl h.2.2⟩
    | .error .deadlineOutOfBounds => exact ⟨h.2.1, .inr (outlastsClock_iff.mp h.2.2)⟩

theorem placed_start (config : Config) (session : SessionId) (now : Nat) (hub : Hub) :
    (start config session now hub).2.Placed := by
  show IsWaiting _
  exact ⟨rfl, rfl, rfl, rfl⟩

theorem placed_of_serving {receiver : Option Receiver} (hs : c.stage = .serving receiver)
    (h : c.IsUpgraded) : c.Placed := by
  rwa [Placed, hs]

/-! ## What the moves make of it -/

/-- A message to a client that is served. -/
theorem placed_message {receiver : Option Receiver} (hs : c.stage = .serving receiver)
    (h : c.IsUpgraded) (hub : Hub) (bytes : Bytes) : (writeThen hub c bytes stay).2.Placed := by
  apply writeThen_cases (P := fun next => next.2.Placed)
  · intro outlet houtput _
    have hsent : c.Continues
        { c with outlet, session := c.session.addSent bytes.length } := by
      refine ⟨rfl, c.session.advances_addSent _, ?_⟩
      rw [houtput]
      exact List.prefix_append _ _
    exact placed_of_serving hs (h.continues hsent rfl)
  · intro outlet front _ _ _ _
    exact placed_finish hub trivial rfl

/-- A close frame to a client that was served. -/
theorem placed_closing (h : c.session.openedAt.isSome) (hub : Hub) (bytes : Bytes) :
    (writeThen hub c bytes fun hub c => finish hub c (.ok ())).2.Placed := by
  apply writeThen_cases (P := fun next => next.2.Placed)
  · intro outlet _ _
    exact placed_finish hub h rfl
  · intro outlet front _ _ _ _
    exact placed_finish hub trivial rfl

theorem placed_fail (h : c.session.openedAt.isSome) (hub : Hub) (cause : Violation) :
    (fail hub c cause).2.Placed := by
  refine placed_finish hub ?_ rfl
  have hclose := (c.session.advances_close).stays_opened h
  exact (continues_write { c with session := c.session.close } _).session.stays_opened hclose

/-- The answer to the upgrade request: the client is served, or refused, or gone. -/
theorem placed_conclude {limit : Nat} {received rest : Bytes} {outcome : Outcome}
    (h : c.IsWaiting) (houtcome : Handshake.outcome? limit received = some (outcome, rest))
    (now : Nat) (hub : Hub) : (conclude now hub c outcome).2.Placed := by
  apply writeThen_cases (P := fun next => next.2.Placed)
  · intro outlet houtput _
    rw [h.output_eq, List.nil_append] at houtput
    cases outcome with
    | refused cause => exact placed_finish _ ⟨h.unopened, houtput⟩ rfl
    | accepted value =>
      have hopen : (c.session.addSent (Outcome.accepted value).response.length).becomeOpen now =
          { c.session.addSent (Outcome.accepted value).response.length with
            phase := .opened, openedAt := some now } :=
        if_pos h.phase_eq
      show IsUpgraded _
      refine ⟨congrArg Session.phase hopen, ?_, _, Upgrade.switchingHead_of_outcome? houtcome, ?_⟩
      · exact congrArg (fun session => session.openedAt.isSome) hopen
      · exact ⟨[], (List.append_nil _).trans houtput.symm⟩
  · intro outlet front _ _ _ _
    exact placed_finish hub trivial rfl

theorem Placed.answer {receiver : Option Receiver} (h : c.Placed)
    (hs : c.stage = .serving receiver) (hub : Hub) (rest : Bytes) (text : List Char) :
    (answer hub { c with inbox := rest } text).2.Placed := by
  rw [Placed, hs] at h
  have hcounted : IsUpgraded { c with inbox := rest, session := c.session.addMessage } :=
    h.continues (.of_session c.session.advances_addMessage _ _) rfl
  exact placed_message (c := { c with inbox := rest, session := c.session.addMessage })
    hs hcounted _ _

/-- **Every move keeps a connection as its stage says.** -/
theorem Placed.move {occurrence : Occurrence} {next : Hub × Connection} (h : c.Placed)
    (hm : Move now hub c occurrence next) : next.2.Placed := by
  have hwaiting : ∀ {handshake}, c.stage = .handshaking handshake → c.IsWaiting := by
    intro handshake hs
    rwa [Placed, hs] at h
  have hupgraded : ∀ {receiver}, c.stage = .serving receiver → c.IsUpgraded := by
    intro receiver hs
    rwa [Placed, hs] at h
  have hopened : ∀ {receiver}, c.stage = .serving receiver → c.session.openedAt.isSome :=
    fun hs => (hupgraded hs).opened
  have hstays : ∀ {receiver} (stage : Stage) (inbox : Bytes), c.stage = .serving receiver →
      IsUpgraded { c with stage, inbox } :=
    fun stage inbox hs => (hupgraded hs).continues (.of_session (.refl _) stage inbox) rfl
  have hclose := (c.session.advances_close).stays_opened
  cases hm with
  | rest => exact h
  | receive bytes =>
    unfold receive
    split
    · exact h
    · split
      · exact h
      · exact h.of_eq rfl rfl rfl rfl rfl rfl rfl
      · next hs => exact placed_of_serving hs ((hupgraded hs).of_eq rfl rfl rfl)
  | limit room => exact h.of_eq rfl rfl rfl rfl rfl rfl rfl
  | @conclude handshake outcome rest hs ho =>
    have hw := hwaiting hs
    exact placed_conclude
      (c := { c with inbox := rest, stage := .handshaking (handshake.finish outcome) })
      ⟨hw.phase_eq, hw.unopened, hw.output_eq, hw.cut_eq⟩ ho now hub
  | breakOff hs hb => exact placed_breakOff (hupgraded hs) hb hub
  | @violation _ _ rest hs _ => exact placed_fail (c := { c with inbox := rest }) (hopened hs) hub _
  | @fault _ _ rest _ hs _ _ => exact placed_fail (c := { c with inbox := rest }) (hopened hs) hub _
  | @ping _ _ rest hs _ _ =>
    exact placed_message (c := { c with inbox := rest }) hs (hstays _ rest hs) hub _
  | @pong _ _ rest hs _ _ =>
    exact placed_of_serving hs (hstays _ rest hs)
  | @close _ _ rest hs _ _ =>
    exact placed_closing (c := { c with inbox := rest, session := c.session.close })
      (hclose (hopened hs)) hub _
  | lag hs _ _ => exact hstays _ c.inbox hs
  | skip hs _ _ _ => exact hstays _ c.inbox hs
  | @tell _ next _ _ hs _ _ _ =>
    exact placed_message (c := { c with stage := .serving (some next) }) rfl
      (hstays _ c.inbox hs) hub _
  | leaveEarly hs => exact placed_finish hub ⟨(hwaiting hs).unopened, (hwaiting hs).output_eq⟩ rfl
  | leave hs => exact placed_finish hub (hopened hs) rfl
  | loseEarly hs => exact placed_finish hub (fun _ => (hwaiting hs).output_eq) rfl
  | lose hs =>
    refine placed_finish hub (fun hnone => ?_) rfl
    have hopen := hopened hs
    rw [hnone] at hopen
    cases hopen
  | timeOut hs =>
    exact placed_finish hub ⟨(hwaiting hs).unopened, fun _ => (hwaiting hs).output_eq⟩ rfl
  | @timeOutAnswering _ _ rest outlet _ hs _ hw =>
    obtain ⟨-, -, -, -, hcut⟩ := Outlet.front_of_write (congrArg Prod.fst hw)
    rw [hw] at hcut
    refine placed_finish (c := { c with inbox := rest, stage := _, outlet }) hub
      ⟨(hwaiting hs).unopened, ?_⟩ rfl
    intro hwhole
    exact absurd (hwhole.symm.trans hcut) (by decide)
  | idle hs =>
    exact placed_closing (c := { c with session := c.session.close }) (hclose (hopened hs)) hub _

/-! ## Before a client is served and after that -/

variable {occurrence : Occurrence} {next : Hub × Connection}

theorem outlet_receive (now : Nat) (c : Connection) (bytes : Bytes) :
    (c.receive now bytes).outlet = c.outlet := by
  unfold receive
  split
  · rfl
  · split <;> rfl

theorem stage_receive (now : Nat) (c : Connection) (bytes : Bytes) :
    (c.receive now bytes).stage = c.stage := by
  unfold receive
  split
  · rfl
  · split <;> rfl

/-- What arrives for a connection that serves its client is put into the inbox. -/
theorem inbox_receive {receiver : Option Receiver} (hs : c.stage = .serving receiver) (now : Nat)
    (bytes : Bytes) : (c.receive now bytes).inbox = c.inbox ++ bytes := by
  unfold receive
  split
  · next hempty => rw [hempty, List.append_nil]
  · rw [hs]

theorem request?_of_ended (h : c.hasEnded = true) : c.request? = none := by
  unfold hasEnded at h
  split at h
  · next hs => simp only [request?, hs]
  · cases h

theorem receive_of_ended (h : c.hasEnded = true) (now : Nat) (bytes : Bytes) :
    c.receive now bytes = c := by
  unfold hasEnded at h
  split at h
  · next hs =>
    simp only [receive, hs]
    split <;> rfl
  · cases h

/-- Nothing happens to a connection that has ended, but that fewer bytes could go through. -/
theorem move_of_ended (h : c.hasEnded = true) (hm : Move now hub c occurrence next) :
    occurrence.incoming? = none ∧
      ∃ room, next = (hub, { c with outlet := { c.outlet with room } }) := by
  cases hm
  case rest => exact ⟨rfl, c.outlet.room, rfl⟩
  case receive bytes =>
    rw [receive_of_ended h]
    exact ⟨rfl, c.outlet.room, rfl⟩
  case limit room => exact ⟨rfl, room, rfl⟩
  -- every other move is one of a connection that waits for its upgrade request or serves its client
  all_goals simp [hasEnded, *] at h

/-- The bytes are a front of an answer to an upgrade request. -/
def FrontOfAnswer (front : Bytes) : Prop :=
  front <+: Transmission.refusal ∨ ∃ head, SwitchingHead head ∧ front <+: head

theorem frontOfAnswer_of_outcome? {limit : Nat} {received rest front : Bytes} {outcome : Outcome}
    (ho : Handshake.outcome? limit received = some (outcome, rest))
    (hfront : front <+: outcome.response) : FrontOfAnswer front := by
  cases outcome with
  | refused cause => exact .inl hfront
  | accepted value => exact .inr ⟨_, Upgrade.switchingHead_of_outcome? ho, hfront⟩

/-- The session has not been open, and nothing but a front of an answer to the upgrade request went
through. -/
structure IsUnserved (c : Connection) : Prop where
  unopened : c.session.openedAt = none
  answer : FrontOfAnswer c.outlet.output

theorem IsWaiting.isUnserved (h : c.IsWaiting) : c.IsUnserved where
  unopened := h.unopened
  answer := .inl (h.output_eq ▸ List.nil_prefix)

/-- What becomes of a connection that waits for its upgrade request: it waits on, or it ends without
having been open, or it begins to serve its client. -/
inductive Awaits (hub : Hub) (c : Connection) (limit : Nat) (occurrence : Occurrence)
    (next : Hub × Connection) : Prop where
  | waits (stage_eq : next.2.stage = c.stage) (config_eq : next.2.config = c.config)
      (inbox_eq : next.2.inbox = c.inbox ++ occurrence.bytes) (waiting : next.2.IsWaiting)
  | ends (ended : next.2.hasEnded = true) (unserved : next.2.IsUnserved)
  | begins {value : String} {rest : Bytes} (silent : occurrence = .silent)
      (outcome_eq : Handshake.outcome? limit c.inbox = some (.accepted value, rest))
      (directory_eq : next.1.directory = hub.directory.subscribe.2)
      (stage_eq : next.2.stage = .serving hub.directory.subscribe.1)
      (config_eq : next.2.config = c.config) (inbox_eq : next.2.inbox = rest)
      (output_eq : next.2.outlet.output = (Outcome.accepted value).response)
      (whole : next.2.outlet.cut = false)

/-- The answer to the upgrade request. -/
theorem awaits_conclude {limit : Nat} {outcome : Outcome} {rest : Bytes} {stage : Stage}
    (h : c.IsWaiting) (ho : Handshake.outcome? limit c.inbox = some (outcome, rest)) (now : Nat)
    (hub : Hub) :
    Awaits hub c limit .silent (conclude now hub { c with inbox := rest, stage } outcome) := by
  apply writeThen_cases
  · intro outlet houtput hcut
    have houtput' : outlet.output = c.outlet.output ++ outcome.response := houtput
    rw [h.output_eq, List.nil_append] at houtput'
    cases outcome with
    | accepted value =>
      exact .begins rfl ho rfl rfl rfl rfl houtput' (hcut.trans h.cut_eq)
    | refused cause =>
      exact .ends rfl ⟨h.unopened, .inl ⟨[], (List.append_nil _).trans houtput'⟩⟩
  · intro outlet front hfront _ houtput _
    have houtput' : outlet.output = c.outlet.output ++ front := houtput
    rw [h.output_eq, List.nil_append] at houtput'
    exact .ends rfl ⟨h.unopened, frontOfAnswer_of_outcome? ho (houtput' ▸ hfront)⟩

/-- **The moves of a connection that waits.** -/
theorem awaits_of_move {handshake : Handshake} (hs : c.stage = .handshaking handshake)
    (h : c.IsWaiting) (hm : Move now hub c occurrence next) :
    Awaits hub c handshake.limit occurrence next := by
  cases hm
  case rest => exact .waits rfl rfl (List.append_nil _).symm h
  case receive bytes =>
    by_cases hempty : bytes = []
    · subst hempty
      have hsame : c.receive now [] = c := by simp only [receive, if_true]
      rw [hsame]
      exact .waits rfl rfl (List.append_nil _).symm h
    · have hreceive : c.receive now bytes =
          { c with inbox := c.inbox ++ bytes, session := c.session.addReceived bytes.length } := by
        simp only [receive, hempty, if_false, hs]
      rw [hreceive]
      exact .waits rfl rfl rfl ⟨h.phase_eq, h.unopened, h.output_eq, h.cut_eq⟩
  case limit room =>
    exact .waits rfl rfl (List.append_nil _).symm ⟨h.phase_eq, h.unopened, h.output_eq, h.cut_eq⟩
  case conclude hstage ho =>
    obtain rfl := Stage.handshaking.inj (hstage.symm.trans hs)
    exact awaits_conclude h ho now hub
  case leaveEarly => exact .ends rfl ⟨h.unopened, h.isUnserved.answer⟩
  case loseEarly => exact .ends rfl ⟨h.unopened, h.isUnserved.answer⟩
  case timeOut => exact .ends rfl ⟨h.unopened, h.isUnserved.answer⟩
  case timeOutAnswering outlet _ _ ho hw =>
    obtain ⟨front, hfront, -, houtput, -⟩ := Outlet.front_of_write (congrArg Prod.fst hw)
    rw [hw] at houtput
    have houtput' : outlet.output = c.outlet.output ++ front := houtput
    rw [h.output_eq, List.nil_append] at houtput'
    exact .ends rfl ⟨h.unopened, frontOfAnswer_of_outcome? ho (houtput' ▸ hfront)⟩
  -- every other move is one of a connection that serves its client
  all_goals
    have hserving := hs.symm.trans ‹c.stage = .serving _›
    cases hserving

end Connection

end ServiceDirectory

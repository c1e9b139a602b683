import ServiceDirectory.Proofs.Connection.Steps
import ServiceDirectory.Proofs.WebSocket.Incoming

/-!
# Everything that can be done to a connection

`Connection.Move` lists it, with the conditions under which each is done and with what can be told of it
from outside (`Connection.Occurrence`).  The pieces of work are among these, those on a frame by what the
frame asks for; all but one: a request (`Connection.request?`) is answered by `Connection.answer`, which
has to do with the directory more than once.
-/

namespace ServiceDirectory

open WebSocket (Frame Incoming Violation)
open Upgrade (Handshake Outcome)

theorem Upgrade.Handshake.finish_of_process {h after : Handshake} {received rest : Bytes}
    {outcome : Outcome} (hp : h.process received = (some outcome, after, rest)) :
    after = h.finish outcome := by
  unfold Handshake.process at hp
  split at hp
  · cases hp
  · split at hp
    · cases hp
    · cases hp
      rfl

namespace Connection

/-! ## The moves -/

/-- What can be told of a move from outside. -/
inductive Occurrence where
  | silent
  /-- Bytes arrive from the client. -/
  | arrival (bytes : Bytes)
  /-- The next frame, or the next broken rule, is taken from the bytes that have arrived. -/
  | intake (incoming : Incoming)
  /-- So many notices were missed. -/
  | lag (missed : Nat)

/-- The bytes that arrive. -/
def Occurrence.bytes : Occurrence → Bytes
  | arrival bytes => bytes
  | _ => []

/-- What is taken in. -/
def Occurrence.incoming? : Occurrence → Option Incoming
  | intake incoming => some incoming
  | _ => none

/-- How many notices were missed, if some were. -/
def Occurrence.missed? : Occurrence → Option Nat
  | lag missed => some missed
  | _ => none

/-- The text of the request that is next in the inbox of a connection, and the bytes behind it. -/
def request? (c : Connection) : Option (List Char × Bytes) :=
  match c.stage with
  | .serving _ =>
    match Frame.readMasked c.config.maxMessageSize c.inbox with
    | .frame frame rest => frame.request?.map fun text => (text, rest)
    | _ => none
  | _ => none

/-- Why a connection that serves its client cannot go on: the next frame has a size that no buffer holds,
or the clock does not reach the moment until which the connection is to wait for the next frame. -/
inductive Breaks (c : Connection) : Failure → Prop where
  | frame (read_eq : Frame.readMasked c.config.maxMessageSize c.inbox = .outOfBounds) :
      Breaks c .frameOutOfBounds
  | deadline (read_eq : Frame.readMasked c.config.maxMessageSize c.inbox = .incomplete)
      (outlasts : c.outlastsClock = true) : Breaks c .deadlineOutOfBounds

/-- Everything that can be done to a connection, but to answer a request. -/
inductive Move (now : Nat) (hub : Hub) (c : Connection) : Occurrence → Hub × Connection → Prop where
  | rest : Move now hub c .silent (hub, c)
  | receive (bytes : Bytes) : Move now hub c (.arrival bytes) (hub, c.receive now bytes)
  /-- Fewer bytes will go through to the client. -/
  | limit (room : Option Nat) :
      Move now hub c .silent (hub, { c with outlet := { c.outlet with room } })
  /-- The upgrade request is answered. -/
  | conclude {handshake : Handshake} {outcome : Outcome} {rest : Bytes}
      (stage_eq : c.stage = .handshaking handshake)
      (outcome_eq : Handshake.outcome? handshake.limit c.inbox = some (outcome, rest)) :
      Move now hub c .silent (conclude now hub
        { c with inbox := rest, stage := .handshaking (handshake.finish outcome) } outcome)
  | breakOff {receiver : Option Receiver} {failure : Failure} (stage_eq : c.stage = .serving receiver)
      (breaks : c.Breaks failure) : Move now hub c .silent (breakOff hub c failure)
  | violation {receiver : Option Receiver} {cause : Violation} {rest : Bytes}
      (stage_eq : c.stage = .serving receiver)
      (read_eq : Frame.readMasked c.config.maxMessageSize c.inbox = .violation cause rest) :
      Move now hub c (.intake (.broken cause)) (fail hub { c with inbox := rest } cause)
  | fault {receiver : Option Receiver} {frame : Frame} {rest : Bytes} {cause : Violation}
      (stage_eq : c.stage = .serving receiver)
      (read_eq : Frame.readMasked c.config.maxMessageSize c.inbox = .frame frame rest)
      (fault_eq : frame.fault? = some cause) :
      Move now hub c (.intake (.frame frame)) (fail hub { c with inbox := rest } cause)
  | ping {receiver : Option Receiver} {frame : Frame} {rest : Bytes}
      (stage_eq : c.stage = .serving receiver)
      (read_eq : Frame.readMasked c.config.maxMessageSize c.inbox = .frame frame rest)
      (opcode_eq : frame.opcode = .ping) :
      Move now hub c (.intake (.frame frame))
        (writeThen hub { c with inbox := rest } (Frame.write .pong frame.payload) stay)
  | pong {receiver : Option Receiver} {frame : Frame} {rest : Bytes}
      (stage_eq : c.stage = .serving receiver)
      (read_eq : Frame.readMasked c.config.maxMessageSize c.inbox = .frame frame rest)
      (opcode_eq : frame.opcode = .pong) :
      Move now hub c (.intake (.frame frame)) (hub, { c with inbox := rest })
  | close {receiver : Option Receiver} {frame : Frame} {rest : Bytes}
      (stage_eq : c.stage = .serving receiver)
      (read_eq : Frame.readMasked c.config.maxMessageSize c.inbox = .frame frame rest)
      (opcode_eq : frame.opcode = .close) :
      Move now hub c (.intake (.frame frame)) (writeThen hub
        { c with inbox := rest, session := c.session.close } (Frame.writeClose frame.closeCode?)
          fun hub c => finish hub c (.ok ()))
  /-- Notices were missed. -/
  | lag {receiver next : Receiver} {channel : Channel Notice} {missed : Nat}
      (stage_eq : c.stage = .serving (some receiver)) (feed_eq : hub.directory.feed = some channel)
      (receive_eq : channel.receive receiver = (.lagged missed, next)) :
      Move now hub c (.lag missed) (hub, { c with stage := .serving (some next) })
  /-- A notice of a change that this session made. -/
  | skip {receiver next : Receiver} {channel : Channel Notice} {notice : Notice}
      (stage_eq : c.stage = .serving (some receiver)) (feed_eq : hub.directory.feed = some channel)
      (receive_eq : channel.receive receiver = (.message notice, next))
      (own : notice.origin = c.session.id) :
      Move now hub c .silent (hub, { c with stage := .serving (some next) })
  /-- A notice of a change that another session made. -/
  | tell {receiver next : Receiver} {channel : Channel Notice} {notice : Notice}
      (stage_eq : c.stage = .serving (some receiver)) (feed_eq : hub.directory.feed = some channel)
      (receive_eq : channel.receive receiver = (.message notice, next))
      (other : notice.origin ≠ c.session.id) :
      Move now hub c .silent (writeThen hub { c with stage := .serving (some next) }
        (Frame.writeText (Utf8.encode notice.payload.toList)) stay)
  /-- The input ends before the upgrade is done. -/
  | leaveEarly {handshake : Handshake} (stage_eq : c.stage = .handshaking handshake) :
      Move now hub c .silent (finish hub c (.error .closedByPeer))
  /-- The input ends. -/
  | leave {receiver : Option Receiver} (stage_eq : c.stage = .serving receiver) :
      Move now hub c .silent (finish hub c (.ok ()))
  /-- Reading fails before the upgrade is done. -/
  | loseEarly {handshake : Handshake} {cause : String} (stage_eq : c.stage = .handshaking handshake) :
      Move now hub c .silent (finish hub c (.error (.readFailed cause)))
  /-- Reading fails. -/
  | lose {receiver : Option Receiver} {cause : String} (stage_eq : c.stage = .serving receiver) :
      Move now hub c .silent (finish hub c (.error (.readFailed cause)))
  /-- The time for the upgrade is over. -/
  | timeOut {handshake : Handshake} (stage_eq : c.stage = .handshaking handshake) :
      Move now hub c .silent (finish hub c (.error .timedOut))
  /-- The time for the upgrade is over while its answer is being written. -/
  | timeOutAnswering {handshake : Handshake} {outcome : Outcome} {rest : Bytes} {outlet : Outlet}
      {room : Nat} (stage_eq : c.stage = .handshaking handshake)
      (outcome_eq : Handshake.outcome? handshake.limit c.inbox = some (outcome, rest))
      (write_eq : (c.outlet.limited room).write outcome.response = (false, outlet)) :
      Move now hub c .silent (finish hub
        { c with inbox := rest, stage := .handshaking (handshake.finish outcome), outlet }
        (.error .timedOut))
  /-- The client was idle for too long. -/
  | idle {receiver : Option Receiver} (stage_eq : c.stage = .serving receiver) :
      Move now hub c .silent (writeThen hub { c with session := c.session.close }
        (Frame.writeClose (some .goingAway)) fun hub c => finish hub c (.ok ()))

variable {now : Nat} {hub : Hub} {c : Connection}

theorem Breaks.isOutOfBounds {failure : Failure} (h : c.Breaks failure) :
    failure.isOutOfBounds = true := by
  cases h <;> rfl

theorem outlastsClock_iff : c.outlastsClock = true ↔
    ∃ idle, c.config.idleTimeout = some idle ∧ clockEnd ≤ c.session.lastActivity + idle := by
  simp [outlastsClock, idleDeadline?, Option.any_eq_true]

theorem move_suspend (now : Nat) (hub : Hub) (c : Connection) :
    Move now hub c .silent (c.suspend hub) := by
  rw [suspend.eq_def]
  split
  · next hs =>
    split
    · next hr =>
      split
      · next ho => exact .breakOff hs (.deadline hr ho)
      · exact .rest
    · exact .rest
  · exact .rest

theorem move_endInput (now : Nat) (hub : Hub) (c : Connection) :
    Move now hub c .silent (c.endInput hub) := by
  rw [endInput.eq_def]
  split
  · exact .rest
  · next hs => exact .leaveEarly hs
  · next hs => exact .leave hs

theorem move_failInput (now : Nat) (hub : Hub) (c : Connection) (cause : String) :
    Move now hub c .silent (c.failInput hub cause) := by
  cases hs : c.stage with
  | ended result =>
    simp only [failInput, hs]
    exact .rest
  | handshaking handshake =>
    simp only [failInput, hs]
    exact .loseEarly hs
  | serving receiver =>
    simp only [failInput, hs]
    exact .lose hs

theorem answerFrame_of_fault {frame : Frame} {cause : Violation} (h : frame.fault? = some cause)
    (hub : Hub) (c : Connection) : answerFrame hub c frame = fail hub c cause := by
  obtain ⟨final, opcode, payload⟩ := frame
  cases opcode with
  | continuation => exact Option.some.inj h ▸ rfl
  | binary => exact Option.some.inj h ▸ rfl
  | ping => cases h
  | pong => cases h
  | close => cases h
  | text =>
    cases final with
    | false => exact Option.some.inj h ▸ rfl
    | true =>
      cases hd : Utf8.decode? payload with
      | none =>
        simp only [answerFrame, hd, if_true]
        simp only [Frame.fault?, hd, Option.isNone_none, if_true] at h
        exact Option.some.inj h ▸ rfl
      | some text => simp [Frame.fault?, hd] at h

/-- The answer to a frame that asks for something else than a request does. -/
theorem move_answerFrame {receiver : Option Receiver} {frame : Frame} {rest : Bytes}
    (hs : c.stage = .serving receiver)
    (hr : Frame.readMasked c.config.maxMessageSize c.inbox = .frame frame rest)
    (hn : frame.request? = none) :
    Move now hub c (.intake (.frame frame)) (answerFrame hub { c with inbox := rest } frame) := by
  obtain ⟨final, opcode, payload⟩ := frame
  cases opcode with
  | continuation => exact .fault hs hr rfl
  | binary => exact .fault hs hr rfl
  | ping => exact .ping hs hr rfl
  | pong => exact .pong hs hr rfl
  | close => exact .close hs hr rfl
  | text =>
    cases final with
    | false => exact .fault hs hr rfl
    | true =>
      cases hd : Utf8.decode? payload with
      | none =>
        simp only [answerFrame, hd, if_true]
        exact .fault hs hr (by simp [Frame.fault?, hd])
      | some text => simp [Frame.request?, hd] at hn

theorem answerFrame_of_request {frame : Frame} {text : List Char} (h : frame.request? = some text)
    (hub : Hub) (c : Connection) : answerFrame hub c frame = answer hub c text := by
  unfold Frame.request? at h
  split at h
  · next hcond => simp only [answerFrame, hcond.1, hcond.2, if_true, h]
  · cases h

/-- What can be told of the next piece of work. -/
def workOccurrence (c : Connection) : Occurrence :=
  match c.stage with
  | .serving _ =>
    match (Frame.readMasked c.config.maxMessageSize c.inbox).incoming? with
    | some incoming => .intake incoming
    | none => .silent
  | _ => .silent

theorem workOccurrence_of_serving {receiver : Option Receiver} {incoming : Incoming}
    (hs : c.stage = .serving receiver)
    (hr : (Frame.readMasked c.config.maxMessageSize c.inbox).incoming? = some incoming) :
    c.workOccurrence = .intake incoming := by
  simp only [workOccurrence, hs, hr]

theorem workOccurrence_of_advance (h : c.advance now hub = none) : c.workOccurrence = .silent := by
  cases hs : c.stage with
  | serving receiver =>
    simp only [workOccurrence, hs, readMasked_of_advance hs h, Frame.Reading.incoming?]
  | _ => simp only [workOccurrence, hs]

theorem move_advance (now : Nat) (hub : Hub) (hq : c.request? = none) :
    Move now hub c c.workOccurrence ((c.advance now hub).getD (hub, c)) := by
  cases hn : c.advance now hub with
  | none =>
    rw [workOccurrence_of_advance hn]
    exact .rest
  | some next =>
    cases work_of_advance hn with
    | conclude hs _ ho =>
      have hsilent : c.workOccurrence = .silent := by simp only [workOccurrence, hs]
      rw [hsilent]
      exact .conclude hs ho
    | breakOff hs hr =>
      have hsilent : c.workOccurrence = .silent := by
        simp only [workOccurrence, hs, hr, Frame.Reading.incoming?]
      rw [hsilent]
      exact .breakOff hs (.frame hr)
    | fail hs hr =>
      rw [workOccurrence_of_serving hs (congrArg Frame.Reading.incoming? hr)]
      exact .violation hs hr
    | answerFrame hs hr =>
      rw [workOccurrence_of_serving hs (congrArg Frame.Reading.incoming? hr)]
      simp only [request?, hs, hr, Option.map_eq_none_iff] at hq
      exact move_answerFrame hs hr hq

/-- A request is next: its frame is taken in and it is answered. -/
theorem advance_of_request {text : List Char} {rest : Bytes} (h : c.request? = some (text, rest)) :
    ∃ receiver frame, c.stage = .serving receiver ∧
      Frame.readMasked c.config.maxMessageSize c.inbox = .frame frame rest ∧
      frame.request? = some text ∧ c.workOccurrence = .intake (.frame frame) ∧
      ∀ now hub, c.advance now hub = some (answer hub { c with inbox := rest } text) := by
  unfold request? at h
  split at h
  · next receiver hs =>
    split at h
    · next frame rest' hr =>
      obtain ⟨text', ht, heq⟩ := Option.map_eq_some_iff.mp h
      cases heq
      refine ⟨receiver, frame, hs, hr, ht,
        workOccurrence_of_serving hs (congrArg Frame.Reading.incoming? hr), ?_⟩
      intro now hub
      simp only [advance, hs, hr, answerFrame_of_request ht]
    · cases h
  · cases h

/-- What can be told when a connection looks for a notice. -/
def noticeOccurrence (hub : Hub) (c : Connection) : Occurrence :=
  match c.stage, hub.directory.feed with
  | .serving (some receiver), some channel =>
    match channel.receive receiver with
    | (.lagged missed, _) => .lag missed
    | _ => .silent
  | _, _ => .silent

theorem move_takeNotice (now : Nat) (hub : Hub) (c : Connection) :
    Move now hub c (c.noticeOccurrence hub) ((c.takeNotice hub).getD (hub, c)) := by
  have hrest : c.noticeOccurrence hub = .silent → c.takeNotice hub = none →
      Move now hub c (c.noticeOccurrence hub) ((c.takeNotice hub).getD (hub, c)) := by
    intro hsilent hnone
    rw [hsilent, hnone]
    exact .rest
  cases hs : c.stage with
  | handshaking handshake =>
    exact hrest (by simp only [noticeOccurrence, hs]) (by simp only [takeNotice, hs])
  | ended result =>
    exact hrest (by simp only [noticeOccurrence, hs]) (by simp only [takeNotice, hs])
  | serving receiver? =>
    cases receiver? with
    | none => exact hrest (by simp only [noticeOccurrence, hs]) (by simp only [takeNotice, hs])
    | some receiver =>
    cases hf : hub.directory.feed with
    | none =>
      exact hrest (by simp only [noticeOccurrence, hs, hf]) (by simp only [takeNotice, hs, hf])
    | some channel =>
    cases hr : channel.receive receiver with
    | mk received next =>
    cases received with
    | empty =>
      exact hrest (by simp only [noticeOccurrence, hs, hf, hr])
        (by simp only [takeNotice, hs, hf, hr])
    | lagged missed =>
      simp only [noticeOccurrence, takeNotice, hs, hf, hr, Option.getD_some]
      exact .lag hs hf hr
    | message notice =>
      simp only [noticeOccurrence, takeNotice, hs, hf, hr]
      by_cases hown : notice.origin = c.session.id
      · simp only [hown, if_true, Option.getD_some]
        exact .skip hs hf hr hown
      · simp only [hown, if_false, Option.getD_some]
        exact .tell hs hf hr hown

theorem move_expire (now : Nat) (hub : Hub) (c : Connection) :
    Move now hub c .silent (c.expire hub) := by
  rw [expire.eq_def]
  split
  · exact .rest
  · next hs => exact .timeOut hs
  · next hs => exact .idle hs

theorem move_expireAnswering (now : Nat) (hub : Hub) (c : Connection) (room : Nat) :
    Move now hub c .silent (c.expireAnswering hub room) := by
  rw [expireAnswering.eq_def]
  split
  · next handshake hs =>
    split
    · exact .rest
    · next outcome after rest hp =>
      split
      · exact .rest
      · next outlet hw =>
        obtain rfl := Handshake.finish_of_process hp
        exact .timeOutAnswering hs (Handshake.outcome?_of_process hp) hw
  · exact .rest

end Connection

end ServiceDirectory

import Mathlib.Algebra.Ring.Nat
import Mathlib.Tactic.Common
import ServiceDirectory.Connection.Drain

/-!
# What a piece of work can be

`Connection.advance` does one of four things: it answers the upgrade request, breaks off where a frame
is out of bounds, answers a violation or answers a frame.  `Work` lists them with the conditions under
which each is done, so that a property of all steps is a case for each.
-/

namespace ServiceDirectory.Connection

open Upgrade (Handshake Outcome)
open WebSocket (Frame Violation)

/-- The pieces of work that a connection can do. -/
inductive Work (now : Nat) (hub : Hub) (c : Connection) : Hub × Connection → Prop where
  | conclude {handshake : Handshake} {outcome : Outcome} {rest : Bytes}
      (stage_eq : c.stage = .handshaking handshake) (reading : handshake.isDone = false)
      (outcome_eq : Handshake.outcome? handshake.limit c.inbox = some (outcome, rest)) :
      Work now hub c (conclude now hub
        { c with inbox := rest, stage := .handshaking (handshake.finish outcome) } outcome)
  | breakOff {receiver : Option Receiver} (stage_eq : c.stage = .serving receiver)
      (read_eq : Frame.readMasked c.config.maxMessageSize c.inbox = .outOfBounds) :
      Work now hub c (breakOff hub c .frameOutOfBounds)
  | fail {receiver : Option Receiver} {cause : Violation} {rest : Bytes}
      (stage_eq : c.stage = .serving receiver)
      (read_eq : Frame.readMasked c.config.maxMessageSize c.inbox = .violation cause rest) :
      Work now hub c (fail hub { c with inbox := rest } cause)
  | answerFrame {receiver : Option Receiver} {frame : Frame} {rest : Bytes}
      (stage_eq : c.stage = .serving receiver)
      (read_eq : Frame.readMasked c.config.maxMessageSize c.inbox = .frame frame rest) :
      Work now hub c (answerFrame hub { c with inbox := rest } frame)

variable {now : Nat} {hub : Hub} {c : Connection}

theorem work_of_advance {next : Hub × Connection} (h : c.advance now hub = some next) :
    Work now hub c next := by
  simp only [advance] at h
  split at h
  · simp at h
  · next handshake hs =>
    cases hd : handshake.isDone with
    | true => simp [Handshake.process, hd] at h
    | false =>
      cases ho : Handshake.outcome? handshake.limit c.inbox with
      | none => simp [Handshake.process, hd, ho] at h
      | some found =>
        simp only [Handshake.process, hd, ho, Bool.false_eq_true, if_false] at h
        exact Option.some.inj h ▸ .conclude hs hd ho
  · next receiver hs =>
    split at h
    · simp at h
    · next hr => exact Option.some.inj h ▸ .breakOff hs hr
    · next cause rest hr => exact Option.some.inj h ▸ .fail hs hr
    · next frame rest hr => exact Option.some.inj h ▸ .answerFrame hs hr

/-- A connection that waits for its request head has not got all of it. -/
theorem outcome?_of_advance {handshake : Handshake} (hs : c.stage = .handshaking handshake)
    (hd : handshake.isDone = false) (h : c.advance now hub = none) :
    Handshake.outcome? handshake.limit c.inbox = none := by
  cases ho : Handshake.outcome? handshake.limit c.inbox with
  | none => rfl
  | some found => simp [advance, hs, Handshake.process, hd, ho] at h

/-- A connection that waits for frames has not got all of the next one. -/
theorem readMasked_of_advance {receiver : Option Receiver} (hs : c.stage = .serving receiver)
    (h : c.advance now hub = none) :
    Frame.readMasked c.config.maxMessageSize c.inbox = .incomplete := by
  simp only [advance, hs] at h
  split at h
  · assumption
  all_goals simp at h

end ServiceDirectory.Connection

import ServiceDirectory.Config
import ServiceDirectory.Connection.Failure
import ServiceDirectory.Connection.Outlet
import ServiceDirectory.Directory
import ServiceDirectory.Metrics
import ServiceDirectory.Session
import ServiceDirectory.Upgrade.Handshake
import ServiceDirectory.WebSocket.Frame

/-!
# Connections

A connection takes one client from the opening handshake to the end:

* while it is `handshaking` it collects a request head and answers it with 101 or 400;
* while it is `serving` it answers frames one after the other: a text message is a request and gets a
  response, a ping a pong, a close frame its echo; anything else is a violation, which is answered by
  a close frame.  Notices of changes made by other sessions are passed on as they come.  A client
  that is idle for too long is sent a close frame;
* when it has `ended` it does nothing any more.

A connection shares the directory and the counters with all others; together these are the `Hub`.
Every function here is one step that nothing comes between.  `Connection.advance` does the next piece
of work on the bytes received so far, if there is one, and `Connection.suspend` begins to wait where
there is none; the other steps let something happen to the connection: bytes or the end of the input
arrive, reading fails, a notice is there, time has passed.

A connection that cannot go on, because a number is out of bounds, breaks off (`Connection.breakOff`).
That is not one of the orderly ways to end: it leaves the session and the counters as they are.
-/

namespace ServiceDirectory

open Upgrade (Handshake Outcome)
open WebSocket (Frame Violation CloseCode)

/-- What all connections share. -/
structure Hub where
  directory : Directory
  metrics : Metrics := {}

/-- How far a connection has come. -/
inductive Stage where
  | handshaking (handshake : Handshake)
  /-- `receiver` is the subscription to notices, if they are on. -/
  | serving (receiver : Option Receiver)
  | ended (result : Except Failure Unit)

/-- One client connection. -/
structure Connection where
  config : Config
  session : Session
  stage : Stage
  /-- Bytes received and not worked on yet. -/
  inbox : Bytes := []
  outlet : Outlet := {}

namespace Connection

/-- Nothing more will happen. -/
def hasEnded (c : Connection) : Bool :=
  match c.stage with
  | .ended _ => true
  | _ => false

/-- The connection has ended by breaking off. -/
def brokeOff (c : Connection) : Bool :=
  match c.stage with
  | .ended (.error failure) => failure.isOutOfBounds
  | _ => false

/-- A connection that begins now, and the hub that has counted it. -/
def start (config : Config) (session : SessionId) (now : Nat) (hub : Hub) : Hub × Connection :=
  ({ hub with metrics := hub.metrics.connectionOpened },
    { config
      session := (Session.start session now).startHandshake
      stage := .handshaking { limit := config.maxHeadSize } })

/-! ## The ways to end -/

/-- Give up the subscription to notices, if there is one. -/
def leave (hub : Hub) (c : Connection) : Hub :=
  match c.stage with
  | .serving (some _) => { hub with directory := hub.directory.unsubscribe }
  | _ => hub

/-- End with a result. -/
def finish (hub : Hub) (c : Connection) (result : Except Failure Unit) : Hub × Connection :=
  let hub := leave hub c
  ({ hub with metrics := hub.metrics.connectionClosed },
    { c with session := c.session.finish, stage := .ended result })

/-- Break off where a number is out of bounds: the connection is not counted as closed, and its session
is not finished. -/
def breakOff (hub : Hub) (c : Connection) (failure : Failure) : Hub × Connection :=
  (leave hub c, { c with stage := .ended (.error failure) })

/-- Write some bytes to the client; whether all of them went through comes first. -/
def write (c : Connection) (bytes : Bytes) : Bool × Connection :=
  let (whole, outlet) := c.outlet.write bytes
  (whole,
    { c with outlet, session := if whole then c.session.addSent bytes.length else c.session })

/-- Write some bytes and go on, or end where they do not go through. -/
def writeThen (hub : Hub) (c : Connection) (bytes : Bytes)
    (next : Hub → Connection → Hub × Connection) : Hub × Connection :=
  match c.write bytes with
  | (true, c) => next hub c
  | (false, c) => finish hub c (.error .brokenPipe)

/-- Go on waiting. -/
def stay (hub : Hub) (c : Connection) : Hub × Connection := (hub, c)

/-- Answer a violation by a close frame, whether it goes through or not, and end. -/
def fail (hub : Hub) (c : Connection) (cause : Violation) : Hub × Connection :=
  let c := { c with session := c.session.close }
  let (_, c) := c.write (Frame.writeClose (some cause.closeCode))
  finish hub c (.error (.frame cause))

/-! ## The handshake -/

/-- Answer the upgrade request as its outcome says. -/
def conclude (now : Nat) (hub : Hub) (c : Connection) (outcome : Outcome) : Hub × Connection :=
  writeThen hub c outcome.response fun hub c =>
    match outcome with
    | .accepted _ =>
      let (receiver, directory) := hub.directory.subscribe
      ({ hub with directory },
        { c with session := c.session.becomeOpen now, stage := .serving receiver })
    | .refused cause =>
      finish { hub with metrics := hub.metrics.handshakeRejected } c (.error (.handshake cause))

/-! ## Frames -/

/-- Answer the text of a request. -/
def answer (hub : Hub) (c : Connection) (text : List Char) : Hub × Connection :=
  let (response, directory) := hub.directory.handleText c.session.id (String.ofList text)
  writeThen { directory, metrics := hub.metrics.messageHandled }
    { c with session := c.session.addMessage }
    (Frame.writeText (Utf8.encode response.render.toList)) stay

/-- Answer a frame. -/
def answerFrame (hub : Hub) (c : Connection) (frame : Frame) : Hub × Connection :=
  match frame.opcode with
  | .text =>
    if frame.final then
      match Utf8.decode? frame.payload with
      | none => fail hub c .invalidUtf8
      | some text => answer hub c text
    else fail hub c .fragmented
  | .continuation => fail hub c .fragmented
  | .binary => fail hub c (.unsupported .binary)
  | .ping => writeThen hub c (Frame.write .pong frame.payload) stay
  | .pong => (hub, c)
  | .close =>
    writeThen hub { c with session := c.session.close } (Frame.writeClose frame.closeCode?)
      fun hub c => finish hub c (.ok ())

/-! ## Working on the bytes received -/

/-- The next piece of work on the bytes received, if there is one: the answer to the upgrade request,
or to one frame.  Otherwise the connection waits (`Connection.suspend`). -/
def advance (now : Nat) (hub : Hub) (c : Connection) : Option (Hub × Connection) :=
  match c.stage with
  | .ended _ => none
  | .handshaking handshake =>
    match handshake.process c.inbox with
    | (none, _, _) => none
    | (some outcome, handshake, rest) =>
      some (conclude now hub { c with inbox := rest, stage := .handshaking handshake } outcome)
  | .serving _ =>
    match Frame.readMasked c.config.maxMessageSize c.inbox with
    | .incomplete => none
    | .outOfBounds => some (breakOff hub c .frameOutOfBounds)
    | .violation cause rest => some (fail hub { c with inbox := rest } cause)
    | .frame frame rest => some (answerFrame hub { c with inbox := rest } frame)

/-- When the client of an open connection will have been idle for too long, if it may not be idle for
any time. -/
def idleDeadline? (c : Connection) : Option Nat :=
  c.config.idleTimeout.map (c.session.lastActivity + ·)

/-- The clock does not reach the moment at which the client will have been idle for too long. -/
def outlastsClock (c : Connection) : Bool := c.idleDeadline?.any (clockEnd ≤ ·)

/-- Begin to wait where there is nothing to work on.  An open connection has to tell until when it
waits, and breaks off where the clock does not reach so far. -/
def suspend (hub : Hub) (c : Connection) : Hub × Connection :=
  match c.stage with
  | .serving _ =>
    match Frame.readMasked c.config.maxMessageSize c.inbox with
    | .incomplete => if c.outlastsClock then breakOff hub c .deadlineOutOfBounds else (hub, c)
    | _ => (hub, c)
  | _ => (hub, c)

/-! ## What happens to a connection -/

/-- Bytes arrive.  Only bytes that arrive after the upgrade count as activity. -/
def receive (now : Nat) (c : Connection) (bytes : Bytes) : Connection :=
  if bytes = [] then c
  else match c.stage with
    | .ended _ => c
    | .handshaking _ =>
      { c with inbox := c.inbox ++ bytes, session := c.session.addReceived bytes.length }
    | .serving _ =>
      { c with
        inbox := c.inbox ++ bytes
        session := (c.session.addReceived bytes.length).touch now }

/-- The input ends. -/
def endInput (hub : Hub) (c : Connection) : Hub × Connection :=
  match c.stage with
  | .ended _ => (hub, c)
  | .handshaking _ => finish hub c (.error .closedByPeer)
  | .serving _ => finish hub c (.ok ())

/-- Reading fails. -/
def failInput (hub : Hub) (c : Connection) (cause : String) : Hub × Connection :=
  match c.stage with
  | .ended _ => (hub, c)
  | _ => finish hub c (.error (.readFailed cause))

/-- The client is gone: nothing goes through to it any more. -/
def breakOutlet (c : Connection) : Connection := { c with outlet := c.outlet.broken }

/-- The client takes at most so many more bytes before it is gone. -/
def limitOutlet (c : Connection) (room : Nat) : Connection :=
  { c with outlet := c.outlet.limited room }

/-- Take the next notice, if there is one, and pass it on unless this session caused it.  Notices
that were missed are passed over. -/
def takeNotice (hub : Hub) (c : Connection) : Option (Hub × Connection) :=
  match c.stage, hub.directory.feed with
  | .serving (some receiver), some channel =>
    match channel.receive receiver with
    | (.empty, _) => none
    | (.lagged _, receiver) => some (hub, { c with stage := .serving (some receiver) })
    | (.message notice, receiver) =>
      let c := { c with stage := .serving (some receiver) }
      if notice.origin = c.session.id then some (hub, c)
      else some (writeThen hub c (Frame.writeText (Utf8.encode notice.payload.toList)) stay)
  | _, _ => none

/-- When the connection ends by itself: at the end of the time for the upgrade, or when an open
connection was idle for too long. -/
def deadline? (c : Connection) : Option Nat :=
  match c.stage with
  | .ended _ => none
  | .handshaking _ => some (c.session.connectedAt + c.config.handshakeTimeout)
  | .serving _ => c.idleDeadline?

/-- The deadline passes while the answer to the upgrade request is being written to a client that is
slow to take it: at most `room` bytes of the answer go through, which are not all of it. -/
def expireAnswering (hub : Hub) (c : Connection) (room : Nat) : Hub × Connection :=
  match c.stage with
  | .handshaking handshake =>
    match handshake.process c.inbox with
    | (none, _, _) => (hub, c)
    | (some outcome, handshake, rest) =>
      match (c.outlet.limited room).write outcome.response with
      | (true, _) => (hub, c)
      | (false, outlet) =>
        finish hub { c with inbox := rest, stage := .handshaking handshake, outlet }
          (.error .timedOut)
  | _ => (hub, c)

/-- The deadline has passed. -/
def expire (hub : Hub) (c : Connection) : Hub × Connection :=
  match c.stage with
  | .ended _ => (hub, c)
  | .handshaking _ => finish hub c (.error .timedOut)
  | .serving _ =>
    writeThen hub { c with session := c.session.close }
      (Frame.writeClose (some .goingAway)) fun hub c => finish hub c (.ok ())

end Connection

end ServiceDirectory

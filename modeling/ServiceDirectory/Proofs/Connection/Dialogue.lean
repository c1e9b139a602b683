import ServiceDirectory.Network
import ServiceDirectory.Proofs.Connection.Steps
import ServiceDirectory.Proofs.Upgrade.Arrival
import ServiceDirectory.Proofs.WebSocket.Arrival

/-!
# The dialogue with one client

With notices off and no timer running out, what a connection does depends on the bytes of its client
alone.  `Dialogue.ofInput` says what it does, from all the bytes at once and without any state: it cuts
off the request head and answers it, then cuts the bytes behind it into frames and answers them one
after the other.

`Connection.serve` is the loop of a connection, which gets the bytes in chunks, works on each as far as
it can and keeps the rest.  However the bytes are cut into chunks, both come to the same
(`serve_eq_ofInput`): what is written, how the connection ends and which table it leaves.

The proof is a simulation.  `Connection.prospect` is what a connection has written together with what
the reference function says of the bytes that it keeps and of those to come; no step changes it.
-/

namespace ServiceDirectory

open WebSocket (Frame Violation)
open Upgrade (Handshake Outcome Refusal)

/-! ## The reference function -/

/-- What comes of the bytes of one client. -/
structure Dialogue where
  /-- The bytes written to the client. -/
  output : Bytes := []
  /-- How the connection ended, if it did. -/
  result : Option (Except Failure Unit) := none
  /-- The table that is left. -/
  store : Store
  deriving DecidableEq

namespace Dialogue

/-- The dialogue that goes on after some bytes were written. -/
def after (written : Bytes) (dialogue : Dialogue) : Dialogue :=
  { dialogue with output := written ++ dialogue.output }

/-- The upgrade was refused. -/
def refused (cause : Refusal) (store : Store) : Dialogue :=
  { output := (Outcome.refused cause).response, result := some (.error (.handshake cause)), store }

end Dialogue

namespace Connection

/-! ## The loop of a connection -/

/-- Work on the bytes received until the connection waits, then take the next chunk, as long as there
is one.  Each chunk comes with the time at which it arrives. -/
def takeIn (now : Nat) (hub : Hub) (c : Connection) : List (Nat × Bytes) → Hub × Connection
  | [] => c.drain now hub
  | (later, chunk) :: arrivals =>
    let (hub, c) := c.drain now hub
    takeIn later hub (c.receive later chunk) arrivals

/-- Serve one client, whose bytes arrive in chunks and whose input ends behind them or does not; no
deadline passes. -/
def serve (config : Config) (session : SessionId) (now : Nat) (hub : Hub)
    (arrivals : List (Nat × Bytes)) (inputEnds : Bool) : Hub × Connection :=
  let (hub, c) := Connection.start config session now hub
  let (hub, c) := takeIn now hub c arrivals
  if inputEnds then c.endInput hub else (hub, c)

/-- What has come of a connection. -/
def dialogue (hub : Hub) (c : Connection) : Dialogue :=
  { output := c.outlet.output
    result := match c.stage with
      | .ended result => some result
      | _ => none
    store := hub.directory.store }

/-! ## What bears on a connection -/

/-- Nothing but the bytes of its client bears on a connection: notices are off and every write goes
through. -/
structure Undisturbed (config : Config) (hub : Hub) (c : Connection) : Prop where
  config_eq : c.config = config
  policy_eq : hub.directory.policy = config.policy
  lenient_eq : hub.directory.lenient = config.lenientQuotes
  feed_eq : hub.directory.feed = none
  room_eq : c.outlet.room = none
  handshake_eq : ∀ handshake, c.stage = .handshaking handshake →
    handshake = { limit := config.maxHeadSize }

/-- A connection that has written some bytes, all of which went through. -/
def sent (c : Connection) (bytes : Bytes) : Connection :=
  { c with
    outlet := { c.outlet with pieces := bytes :: c.outlet.pieces }
    session := c.session.addSent bytes.length }

theorem write_of_room {c : Connection} (h : c.outlet.room = none) (bytes : Bytes) :
    c.write bytes = (true, c.sent bytes) := by
  simp [write, Outlet.write, h, sent]

@[simp] theorem leave_store (hub : Hub) (c : Connection) :
    (leave hub c).directory.store = hub.directory.store := by
  rw [leave]
  split <;> rfl

variable {config : Config} {inputEnds : Bool} {now : Nat} {hub : Hub} {c : Connection}

/-! ## Ending -/

theorem Undisturbed.sent (h : Undisturbed config hub c) (bytes : Bytes) :
    Undisturbed config hub (c.sent bytes) :=
  { h with }

theorem leave_of_feed (h : hub.directory.feed = none) : leave hub c = hub := by
  obtain ⟨⟨policy, store, feed, lenient⟩, metrics⟩ := hub
  obtain rfl : feed = none := h
  rw [leave]
  split <;> rfl

theorem Undisturbed.handled (h : Undisturbed config hub c) (store : Store) (metrics : Metrics) :
    Undisturbed config { directory := { hub.directory with store }, metrics }
      { c with session := c.session.addMessage } :=
  { h with }

theorem Undisturbed.finish (h : Undisturbed config hub c) (result : Except Failure Unit) :
    Undisturbed config (finish hub c result).1 (finish hub c result).2 := by
  rw [Connection.finish, leave_of_feed h.feed_eq]
  exact { h with handshake_eq := by simp }

/-- A connection that has begun to close, and has told its client why. -/
def closing (c : Connection) (cause : Violation) : Connection :=
  ({ c with session := c.session.close } : Connection).sent (Frame.writeClose (some cause.closeCode))

theorem fail_of_room (h : c.outlet.room = none) (hub : Hub) (cause : Violation) :
    fail hub c cause = finish hub (c.closing cause) (.error (.frame cause)) := by
  have hw := write_of_room (c := { c with session := c.session.close }) h
    (Frame.writeClose (some cause.closeCode))
  rw [fail, hw, closing]

theorem Undisturbed.fail (h : Undisturbed config hub c) (cause : Violation) :
    Undisturbed config (fail hub c cause).1 (fail hub c cause).2 := by
  rw [fail_of_room h.room_eq]
  have hc : Undisturbed config hub (c.closing cause) := { h with }
  exact hc.finish _

theorem Undisturbed.receive (h : Undisturbed config hub c) (bytes : Bytes) :
    Undisturbed config hub (c.receive now bytes) := by
  rw [Connection.receive]
  split
  · exact h
  · split <;> exact { h with handshake_eq := by simpa using h.handshake_eq }

end Connection

open Connection (serve dialogue)

end ServiceDirectory

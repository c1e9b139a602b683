import ServiceDirectory.Connection.Drain

/-!
# Networks of connections

Any number of connections that share one hub, numbered from 0 in the order in which they were made,
and a clock in milliseconds.

What can happen is a list of actions in any order (`Action`, `Network.act`): each is one step of one
connection, or lets time pass.  `Network.settle` is one schedule among the many: it lets every
connection work until it waits, then passes on every notice, then ends the connections whose deadline
has passed.
-/

namespace ServiceDirectory

/-- Connections that share a hub. -/
structure Network where
  config : Config
  hub : Hub
  /-- The time. -/
  now : Nat := 0
  connections : List Connection := []

/-- One step of a network. -/
inductive Action where
  /-- A client connects. -/
  | connect (session : SessionId)
  /-- Bytes from a client arrive. -/
  | receive (conn : Nat) (bytes : Bytes)
  /-- The input of a client ends. -/
  | endInput (conn : Nat)
  /-- Reading what a client sends fails. -/
  | failInput (conn : Nat) (cause : String)
  /-- A client is gone: nothing goes through to it any more. -/
  | breakOutlet (conn : Nat)
  /-- A client takes at most so many more bytes before it is gone. -/
  | limitOutlet (conn : Nat) (room : Nat)
  /-- A connection does the next piece of work on the bytes received, if there is one. -/
  | advance (conn : Nat)
  /-- A connection begins to wait, if there is nothing to work on. -/
  | suspend (conn : Nat)
  /-- A connection takes the next notice, if there is one. -/
  | takeNotice (conn : Nat)
  /-- A connection ends if its deadline has passed. -/
  | expire (conn : Nat)
  /-- A connection ends in the middle of its answer to the upgrade request, if its deadline has
  passed. -/
  | expireAnswering (conn : Nat) (room : Nat)
  /-- Time passes. -/
  | pass (milliseconds : Nat)
  deriving DecidableEq, Repr

namespace Network

/-- The directory that a server with given settings begins with. -/
def directoryOf (config : Config) (store : Store := .empty) : Directory :=
  let directory : Directory :=
    { policy := config.policy, store, lenient := config.lenientQuotes }
  if config.notices then directory.withNotices else directory

/-- A network without connections. -/
def start (config : Config) (store : Store := .empty) : Network :=
  { config, hub := { directory := directoryOf config store } }

/-- Let something happen to one connection; nothing happens where there is no such connection. -/
def update (n : Network) (conn : Nat) (f : Hub → Connection → Hub × Connection) : Network :=
  match n.connections[conn]? with
  | none => n
  | some c =>
    let (hub, c) := f n.hub c
    { n with hub, connections := n.connections.set conn c }

/-- Do something to a connection whose deadline has passed. -/
def whenDue (now : Nat) (f : Hub → Connection → Hub × Connection) (hub : Hub) (c : Connection) :
    Hub × Connection :=
  match c.deadline? with
  | some deadline => if deadline ≤ now then f hub c else (hub, c)
  | none => (hub, c)

/-- The network after an action. -/
def act (n : Network) : Action → Network
  | .connect session =>
    let (hub, c) := Connection.start n.config session n.now n.hub
    { n with hub, connections := n.connections ++ [c] }
  | .receive conn bytes => n.update conn fun hub c => (hub, c.receive n.now bytes)
  | .endInput conn => n.update conn fun hub c => c.endInput hub
  | .failInput conn cause => n.update conn fun hub c => c.failInput hub cause
  | .breakOutlet conn => n.update conn fun hub c => (hub, c.breakOutlet)
  | .limitOutlet conn room => n.update conn fun hub c => (hub, c.limitOutlet room)
  | .advance conn => n.update conn fun hub c => (c.advance n.now hub).getD (hub, c)
  | .suspend conn => n.update conn fun hub c => c.suspend hub
  | .takeNotice conn => n.update conn fun hub c => (c.takeNotice hub).getD (hub, c)
  | .expire conn => n.update conn (whenDue n.now Connection.expire)
  | .expireAnswering conn room =>
    n.update conn (whenDue n.now fun hub c => c.expireAnswering hub room)
  | .pass milliseconds => { n with now := n.now + milliseconds }

/-- The network after a list of actions. -/
def run (n : Network) (actions : List Action) : Network := actions.foldl act n

/-! ## A schedule -/

/-- Let one connection work until it waits. -/
def drain (n : Network) (conn : Nat) : Network :=
  (n.update conn fun hub c => c.drain n.now hub).act (.suspend conn)

/-- Let each connection do something, one after the other. -/
def forEach (n : Network) (f : Network → Nat → Network) : Network :=
  (List.range n.connections.length).foldl f n

/-- Let every connection do what it can: work on the bytes received, pass on notices, and end where
its deadline has passed. -/
def settle (n : Network) : Network :=
  let n := n.forEach drain
  let n := n.forEach fun n conn => n.update conn Connection.takeNotices
  n.forEach fun n conn => n.act (.expire conn)

/-- A client connects, and the network settles. -/
def connect (n : Network) (session : SessionId) : Network := (n.act (.connect session)).settle

/-- Bytes from a client arrive, and the network settles. -/
def deliver (n : Network) (conn : Nat) (bytes : Bytes) : Network :=
  (n.act (.receive conn bytes)).settle

/-- The last bytes from a client arrive and are worked on, then its input ends, and the network
settles. -/
def finishInput (n : Network) (conn : Nat) (bytes : Bytes) : Network :=
  (((n.act (.receive conn bytes)).drain conn).act (.endInput conn)).settle

/-- A client is gone after its last bytes, and the network settles. -/
def hangUp (n : Network) (conn : Nat) (bytes : Bytes) : Network :=
  (n.act (.breakOutlet conn)).finishInput conn bytes

/-- Time passes without input, and the network settles. -/
def wait (n : Network) (milliseconds : Nat) : Network := (n.act (.pass milliseconds)).settle

end Network

end ServiceDirectory

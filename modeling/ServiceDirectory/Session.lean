import ServiceDirectory.Change

/-!
# Sessions

What is known of one client from the moment its connection is made until it has ended.  A session
goes through five phases and never back; messages are exchanged while it is open.  Times are in
milliseconds on the clock of the server.
-/

namespace ServiceDirectory

/-- The first moment that the clock of a server does not reach: its seconds are counted in 63 bits. -/
def clockEnd : Nat := (1 <<< 63) * 1000

/-- How far a session has come. -/
inductive Phase where
  /-- Connected; nothing was read yet. -/
  | connected
  /-- The upgrade request is being read. -/
  | handshaking
  /-- The upgrade was accepted. -/
  | opened
  /-- A close frame was sent or received. -/
  | closing
  | closed
  deriving DecidableEq, Repr

/-- The place of a phase in the order in which they come. -/
def Phase.rank : Phase → Nat
  | connected => 0
  | handshaking => 1
  | opened => 2
  | closing => 3
  | closed => 4

/-- What a session has carried so far. -/
structure Traffic where
  received : UInt64 := 0
  sent : UInt64 := 0
  /-- Text messages handled. -/
  messages : UInt64 := 0
  deriving DecidableEq, Repr

/-- One client. -/
structure Session where
  id : SessionId
  phase : Phase := .connected
  connectedAt : Nat
  /-- When the upgrade was accepted. -/
  openedAt : Option Nat := none
  /-- When the client was last active; at first, when it connected. -/
  lastActivity : Nat
  traffic : Traffic := {}
  deriving DecidableEq, Repr

namespace Session

/-- A session that begins now. -/
def start (id : SessionId) (now : Nat) : Session :=
  { id, connectedAt := now, lastActivity := now }

/-- Begin to read the upgrade request. -/
def startHandshake (session : Session) : Session :=
  if session.phase = .connected then { session with phase := .handshaking } else session

/-- The upgrade was accepted. -/
def becomeOpen (session : Session) (now : Nat) : Session :=
  if session.phase = .handshaking then { session with phase := .opened, openedAt := some now }
  else session

/-- The client is active. -/
def touch (session : Session) (now : Nat) : Session := { session with lastActivity := now }

/-- Begin to close. -/
def close (session : Session) : Session :=
  if session.phase = .closed then session else { session with phase := .closing }

/-- The session has ended. -/
def finish (session : Session) : Session := { session with phase := .closed }

/-- Count bytes received. -/
def addReceived (session : Session) (n : Nat) : Session :=
  { session with
    traffic := { session.traffic with received := session.traffic.received + UInt64.ofNat n } }

/-- Count bytes sent. -/
def addSent (session : Session) (n : Nat) : Session :=
  { session with
    traffic := { session.traffic with sent := session.traffic.sent + UInt64.ofNat n } }

/-- Count a message handled. -/
def addMessage (session : Session) : Session :=
  { session with traffic := { session.traffic with messages := session.traffic.messages + 1 } }

/-- Messages may be exchanged. -/
def isOpen (session : Session) : Bool := session.phase = .opened

end Session

end ServiceDirectory

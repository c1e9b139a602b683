/-!
# Counters of the server

What all connections of a server did together, in counters of 64 bits that wrap around.
-/

namespace ServiceDirectory

/-- The counters. -/
structure Metrics where
  /-- Connections ever served. -/
  total : UInt64 := 0
  /-- Connections served at present. -/
  active : UInt64 := 0
  /-- Connections turned away at the limit. -/
  refused : UInt64 := 0
  /-- Upgrade requests answered with 400. -/
  rejected : UInt64 := 0
  /-- Text messages handled. -/
  messages : UInt64 := 0
  deriving DecidableEq, Repr

namespace Metrics

/-- A connection begins to be served. -/
def connectionOpened (m : Metrics) : Metrics :=
  { m with total := m.total + 1, active := m.active + 1 }

/-- A connection is no longer served. -/
def connectionClosed (m : Metrics) : Metrics := { m with active := m.active - 1 }

/-- A client was turned away at the limit. -/
def connectionRefused (m : Metrics) : Metrics := { m with refused := m.refused + 1 }

/-- An upgrade request was answered with 400. -/
def handshakeRejected (m : Metrics) : Metrics := { m with rejected := m.rejected + 1 }

/-- A text message was handled. -/
def messageHandled (m : Metrics) : Metrics := { m with messages := m.messages + 1 }

end Metrics

end ServiceDirectory

import ServiceDirectory.Network

/-!
# Servers

A server accepts clients as long as it has places for them and serves each over a connection of its
network.  A client that finds no place is turned away: that is counted, and nothing else comes of it.
A place is given back when the connection that holds it ends.  Accepted clients get the session
numbers 1, 2, 3 and so on.

A server that was shut down accepts nobody, and the connections it has go on.
-/

namespace ServiceDirectory

/-- A server. -/
structure Server where
  network : Network
  /-- How many places are free; none stands for any number. -/
  places : Option Nat
  /-- The session of the next client. -/
  nextSession : SessionId := 1
  accepting : Bool := true

namespace Server

/-- A server over a table of entries. -/
def start (config : Config) (store : Store := .empty) : Server :=
  { network := .start config store
    places := if config.maxConnections = 0 then none else some config.maxConnections }

/-- How many connections have not ended. -/
def live (server : Server) : Nat :=
  server.network.connections.countP fun c => ¬ c.hasEnded

/-- Turn a client away. -/
def refuse (server : Server) : Server :=
  { server with
    network := { server.network with
      hub := { server.network.hub with
        metrics := server.network.hub.metrics.connectionRefused } } }

/-- Accept a client, or turn it away where no place is free.  The number of its connection comes
first, if it was accepted. -/
def accept (server : Server) : Option Nat × Server :=
  match server.places with
  | some 0 => (none, server.refuse)
  | places =>
    (some server.network.connections.length,
      { server with
        network := server.network.act (.connect server.nextSession)
        places := places.map (· - 1)
        nextSession := server.nextSession + 1 })

/-- Let something happen to the network, and take back the places of the connections that ended. -/
def serve (server : Server) (f : Network → Network) : Server :=
  let after := { server with network := f server.network }
  { after with places := after.places.map (· + (server.live - after.live)) }

/-- Accept nobody any more; whether the server was accepting comes first. -/
def shutdown (server : Server) : Bool × Server :=
  (server.accepting, { server with accepting := false })

end Server

end ServiceDirectory

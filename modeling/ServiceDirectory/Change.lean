import ServiceDirectory.Channel
import ServiceDirectory.Entry

/-!
# Changes and notices

Every successful change of the directory can be told to the clients.  A notice carries the change as
text, written once for all receivers, and the session that caused it.
-/

namespace ServiceDirectory

/-- The number of a session. -/
abbrev SessionId := UInt64

/-- A change of the directory. -/
inductive Change where
  | registered (entry : Entry)
  | unregistered (id : Uuid)
  | addressUpdated (id : Uuid) (address : Address)
  deriving DecidableEq, Repr

namespace Change

/-- A change as a value of JSON: what happened, then to what. -/
def toJson : Change → Json
  | registered entry => .object [("event", .string "registered"), ("entry", entry.toJson)]
  | unregistered id => .object [("event", .string "unregistered"), ("id", .string id.toText)]
  | addressUpdated id address =>
    .object [("event", .string "address-updated"), ("id", .string id.toText),
      ("address", .string address.toText)]

end Change

/-- A change as it is told to the clients. -/
structure Notice where
  /-- The session that caused the change. -/
  origin : SessionId
  /-- The text of the change. -/
  payload : String
  deriving DecidableEq, Repr

/-- The notice of a change. -/
def Change.notice (change : Change) (origin : SessionId) : Notice :=
  { origin, payload := change.toJson.render }

end ServiceDirectory

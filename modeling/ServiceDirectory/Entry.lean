import ServiceDirectory.Address
import ServiceDirectory.Json.Writer
import ServiceDirectory.Uuid

/-!
# Directory entries

An entry describes one endpoint that listens on the network: who it is (`id`, `name`), what it
carries (`topic`), what kind of endpoint it is (`kind`) and where it is reached (`address`).
-/

namespace ServiceDirectory

/-- The kinds of endpoint that can be listed.  Only endpoints that listen on an address can. -/
inductive EndpointKind where
  | datahub
  | messagehub
  | service
  | streamer
  deriving DecidableEq, Repr

namespace EndpointKind

/-- The name of a kind. -/
def name : EndpointKind → String
  | datahub => "datahub"
  | messagehub => "messagehub"
  | service => "service"
  | streamer => "streamer"

/-- The kind with a given name. -/
def ofName? (name : String) : Option EndpointKind :=
  if name = "datahub" then some datahub
  else if name = "messagehub" then some messagehub
  else if name = "service" then some service
  else if name = "streamer" then some streamer
  else none

theorem ofName?_name (kind : EndpointKind) : ofName? kind.name = some kind := by
  cases kind <;> simp [ofName?, name]

theorem name_of_ofName? {text : String} {kind : EndpointKind} (h : ofName? text = some kind) :
    kind.name = text := by
  simp only [ofName?] at h
  repeat' split at h
  all_goals first | (obtain rfl := Option.some.inj h; simp_all [name]) | simp at h

end EndpointKind

/-- One listed endpoint. -/
structure Entry where
  id : Uuid
  name : String
  topic : String
  kind : EndpointKind
  address : Address
  deriving DecidableEq, Repr

namespace Entry

/-- An entry as a value of JSON, its members in the order of the fields. -/
def toJson (entry : Entry) : Json :=
  .object [
    ("id", .string entry.id.toText),
    ("name", .string entry.name),
    ("topic", .string entry.topic),
    ("type", .string entry.kind.name),
    ("address", .string entry.address.toText)]

end Entry

end ServiceDirectory

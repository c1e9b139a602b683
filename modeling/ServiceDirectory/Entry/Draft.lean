import ServiceDirectory.Entry
import ServiceDirectory.Entry.Policy

/-!
# Drafts of entries

What a client sends is a draft: every field may be missing or be any value of JSON.  A draft becomes
an entry by checking the fields in the order id, topic, type, address, name; the first field that
fails its check is reported, whatever the later ones hold.
-/

namespace ServiceDirectory

/-- The first field of a draft that is not acceptable. -/
inductive Rejection where
  | id
  | topic
  | kind
  | address
  | name
  deriving DecidableEq, Repr

/-- The text that describes a rejection. -/
def Rejection.message : Rejection → String
  | id => "Invalid ID"
  | topic => "Invalid topic"
  | kind => "Invalid type"
  | address => "Invalid address"
  | name => "Invalid name"

/-! ## The fields -/

namespace Field

/-- A letter from a to z, then such letters, points, underscores and hyphens; 2 to 256 in all. -/
def IsTopic (text : List Char) : Prop :=
  2 ≤ text.length ∧ text.length ≤ 256 ∧ (∃ c ∈ text.head?, c.isLower) ∧
    ∀ c ∈ text.tail, c.isLower ∨ c = '.' ∨ c = '_' ∨ c = '-'

instance (text : List Char) : Decidable (IsTopic text) := by
  unfold IsTopic; infer_instance

/-- 1 to 256 characters. -/
def IsName (text : List Char) : Prop := text ≠ [] ∧ text.length ≤ 256

instance (text : List Char) : Decidable (IsName text) := by
  unfold IsName; infer_instance

/-- The text of a field that is there and is a string. -/
def text? (field : Option Json) : Option String := field.bind Json.string?

/-- An identifier in its written form. -/
def id (field : Option Json) : Except Rejection Uuid :=
  match (text? field).bind fun text => Uuid.read? text.toList with
  | some id => .ok id
  | none => .error .id

/-- A topic that is not reserved. -/
def topic (policy : Policy) (field : Option Json) : Except Rejection String :=
  match text? field with
  | some text =>
    if IsTopic text.toList ∧ ¬ policy.IsReserved text then .ok text else .error .topic
  | none => .error .topic

/-- The name of a kind. -/
def kind (field : Option Json) : Except Rejection EndpointKind :=
  match (text? field).bind EndpointKind.ofName? with
  | some kind => .ok kind
  | none => .error .kind

/-- An address in its written form. -/
def address (field : Option Json) : Except Rejection Address :=
  match (text? field).bind fun text => Address.read? text.toList with
  | some address => .ok address
  | none => .error .address

/-- A name. -/
def name (field : Option Json) : Except Rejection String :=
  match text? field with
  | some text => if IsName text.toList then .ok text else .error .name
  | none => .error .name

end Field

/-! ## Drafts -/

/-- What a client says of an entry. -/
structure Draft where
  id : Option Json := none
  name : Option Json := none
  topic : Option Json := none
  kind : Option Json := none
  address : Option Json := none
  deriving Repr

namespace Draft

/-- The address among some members: `address`, or `addr` where there is no `address`. -/
def addressMember? (members : List (String × Json)) : Option Json :=
  (Json.lastMember? "address" members).or (Json.lastMember? "addr" members)

/-- The draft in a value; a value that is not an object holds none of the fields. -/
def ofJson : Option Json → Draft
  | some (.object members) =>
    { id := Json.lastMember? "id" members
      name := Json.lastMember? "name" members
      topic := Json.lastMember? "topic" members
      kind := Json.lastMember? "type" members
      address := addressMember? members }
  | _ => {}

/-- The entry that a draft describes, or the first field that is not acceptable. -/
def validate (policy : Policy) (draft : Draft) : Except Rejection Entry := do
  let id ← Field.id draft.id
  let topic ← Field.topic policy draft.topic
  let kind ← Field.kind draft.kind
  let address ← Field.address draft.address
  let name ← Field.name draft.name
  return { id, name, topic, kind, address }

end Draft

end ServiceDirectory

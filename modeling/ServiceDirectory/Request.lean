import ServiceDirectory.Entry.Draft
import ServiceDirectory.Json.Reader

/-!
# Requests

A client sends requests as text: an object of JSON whose member `request` names what is asked for.
Where single quotes are allowed for double quotes, a text that is not JSON, has no double quote and
has a single quote is read once more with its single quotes turned into double quotes.
-/

namespace ServiceDirectory

/-- What a client asks for. -/
inductive Request where
  | list
  | register (draft : Draft)
  | unregister (id : Option Json)
  | updateAddress (id address : Option Json)
  /-- Anything else, with the name of the request where there is one. -/
  | unrecognized (name : Option String)
  deriving Repr

namespace Request

/-- The request in an object. -/
def ofMembers (members : List (String × Json)) : Request :=
  match (Json.lastMember? "request" members).bind Json.string? with
  | none => .unrecognized none
  | some name =>
    if name = "list" then .list
    else if name = "register" then
      .register (Draft.ofJson (Json.lastMember? "entry" members))
    else if name = "unregister" then .unregister (Json.lastMember? "id" members)
    else if name = "update-address" then
      .updateAddress (Json.lastMember? "id" members) (Draft.addressMember? members)
    else .unrecognized (some name)

/-- The request in a value. -/
def ofJson : Json → Request
  | .object members => ofMembers members
  | _ => .unrecognized none

/-- A text with its single quotes turned into double quotes. -/
def doubleQuoted (text : String) : String :=
  String.ofList (text.toList.map fun c => if c = '\'' then '"' else c)

/-- A text that may be read once more with its quotes turned. -/
def MayBeSingleQuoted (text : String) : Prop := '\'' ∈ text.toList ∧ '"' ∉ text.toList

instance (text : String) : Decidable (MayBeSingleQuoted text) := by
  unfold MayBeSingleQuoted; infer_instance

/-- The value in a text; `lenient` tells whether single quotes are allowed. -/
def value? (lenient : Bool) (text : String) : Option Json :=
  match Json.parse? text with
  | some value => some value
  | none =>
    if lenient ∧ MayBeSingleQuoted text then Json.parse? (doubleQuoted text) else none

/-- The request in a text. -/
def parse (lenient : Bool) (text : String) : Request :=
  match value? lenient text with
  | some value => ofJson value
  | none => .unrecognized none

/-- A short name of what is asked for. -/
def name : Request → String
  | list => "list"
  | register _ => "register"
  | unregister _ => "unregister"
  | updateAddress _ _ => "update-address"
  | unrecognized (some name) => name
  | unrecognized none => "?"

end Request

end ServiceDirectory

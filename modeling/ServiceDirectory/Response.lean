import ServiceDirectory.Entry.Draft
import ServiceDirectory.Store

/-!
# Responses

Every request is answered by an object that says whether it succeeded, a message, and for a listing
the entries.  Clients compare the messages, so their wording is fixed.
-/

namespace ServiceDirectory

/-- The answer to a request. -/
structure Response where
  success : Bool
  message : String
  list : Option (List Entry) := none
  deriving DecidableEq, Repr

namespace Response

/-- A change was made. -/
def ok : Response := { success := true, message := "OK" }

/-- The entries asked for. -/
def listing (entries : List Entry) : Response := { ok with list := some entries }

/-- The request could not be met. -/
def failure (message : String) : Response := { success := false, message }

/-- The request was not understood. -/
def unknownRequest : Response := failure "Unknown request"

/-- A field of the request is not acceptable. -/
def rejected (rejection : Rejection) : Response := failure rejection.message

/-- The table could not be changed as asked. -/
def refused : StoreError → Response
  | .alreadyRegistered _ => failure "Duplicate ID"
  | .notFound _ => failure "Unknown ID"

/-- A response as a value of JSON; only a listing has the member `list`. -/
def toJson (response : Response) : Json :=
  .object (("success", .bool response.success) :: ("message", .string response.message) ::
    match response.list with
    | some entries => [("list", .array (entries.map Entry.toJson))]
    | none => [])

/-- The text of a response. -/
def render (response : Response) : String := response.toJson.render

end Response

end ServiceDirectory

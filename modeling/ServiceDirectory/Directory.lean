import ServiceDirectory.Change
import ServiceDirectory.Request
import ServiceDirectory.Response

/-!
# The directory

The directory answers requests: it reads a request, checks its fields, applies it to the table and
responds.  Each successful change is then published as a notice, where notices are on.

Applying a request (`Directory.apply`) and publishing the change it made (`Directory.publish`) are two
steps.  `Directory.handle` takes them one after the other; two sessions whose requests are handled at
the same time may have them interleaved.
-/

namespace ServiceDirectory

/-- A table of entries, what it is set to, and the channel of its notices, if any. -/
structure Directory where
  policy : Policy := {}
  store : Store := .empty
  feed : Option (Channel Notice) := none
  /-- Single quotes are allowed for double quotes in requests. -/
  lenient : Bool := true

namespace Directory

/-- The directory with notices on. -/
def withNotices (directory : Directory) : Directory :=
  { directory with feed := some (.withCapacity directory.policy.noticeCapacity) }

/-- Subscribe to notices, if they are on. -/
def subscribe (directory : Directory) : Option Receiver × Directory :=
  match directory.feed with
  | none => (none, directory)
  | some channel =>
    let (receiver, channel) := channel.subscribe
    (some receiver, { directory with feed := some channel })

/-- Give up a subscription. -/
def unsubscribe (directory : Directory) : Directory :=
  { directory with feed := directory.feed.map Channel.unsubscribe }

/-! ## Applying a request -/

/-- What applying a request gives: the response, the change made, if any, and the table after it. -/
structure Applied where
  response : Response
  change : Option Change := none
  store : Store
  deriving DecidableEq, Repr

/-- Register the entry that a draft describes. -/
def register (policy : Policy) (store : Store) (draft : Draft) : Applied :=
  match draft.validate policy with
  | .error rejection => { response := .rejected rejection, store }
  | .ok entry =>
    match store.register entry with
    | .error error => { response := .refused error, store }
    | .ok store => { response := .ok, change := some (.registered entry), store }

/-- Take out the entry of an identifier. -/
def unregister (store : Store) (id : Option Json) : Applied :=
  match Field.id id with
  | .error rejection => { response := .rejected rejection, store }
  | .ok id =>
    match store.unregister id with
    | .error error => { response := .refused error, store }
    | .ok (_, store) => { response := .ok, change := some (.unregistered id), store }

/-- Replace the address of the entry of an identifier.  The identifier is checked first, then the
address, then whether there is such an entry. -/
def updateAddress (store : Store) (id address : Option Json) : Applied :=
  match Field.id id with
  | .error rejection => { response := .rejected rejection, store }
  | .ok id =>
    match Field.address address with
    | .error rejection => { response := .rejected rejection, store }
    | .ok address =>
      match store.updateAddress id address with
      | .error error => { response := .refused error, store }
      | .ok store => { response := .ok, change := some (.addressUpdated id address), store }

/-- Apply a request to a table. -/
def apply (policy : Policy) (store : Store) : Request → Applied
  | .list => { response := .listing store.toList, store }
  | .register draft => register policy store draft
  | .unregister id => unregister store id
  | .updateAddress id address => updateAddress store id address
  | .unrecognized _ => { response := .unknownRequest, store }

/-! ## Publishing a change -/

/-- Publish a change, if notices are on; the number of receivers comes first. -/
def publish (directory : Directory) (session : SessionId) (change : Change) : Nat × Directory :=
  match directory.feed with
  | none => (0, directory)
  | some channel =>
    let (receivers, channel) := channel.send (change.notice session)
    (receivers, { directory with feed := some channel })

/-! ## Handling requests -/

/-- Handle a request of a session: apply it and publish the change it made. -/
def handle (directory : Directory) (session : SessionId) (request : Request) :
    Response × Directory :=
  let applied := apply directory.policy directory.store request
  let directory := { directory with store := applied.store }
  match applied.change with
  | none => (applied.response, directory)
  | some change => (applied.response, (directory.publish session change).2)

/-- Handle the text of a request. -/
def handleText (directory : Directory) (session : SessionId) (text : String) :
    Response × Directory :=
  directory.handle session (Request.parse directory.lenient text)

end Directory

end ServiceDirectory

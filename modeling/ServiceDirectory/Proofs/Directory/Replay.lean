import ServiceDirectory.Directory
import ServiceDirectory.Proofs.Address.Canonical
import ServiceDirectory.Proofs.Json.Documents
import ServiceDirectory.Proofs.Results
import ServiceDirectory.Proofs.Store.Refinement
import ServiceDirectory.Proofs.Uuid

/-!
# Following the directory by its notices

What a client can do with notices: read the change that the text of a notice tells (`Notice.change?`)
and make it on a list of its own (`Change.applyTo?`).

Every change that a request makes can be followed in this way (`does_apply`): its notice is read
back as the change, it fits the list before the request and gives the list after it.  A request that
makes no change leaves the table as it is.
-/

namespace ServiceDirectory

/-! ## Reading a notice -/

/-- The entry in a value. -/
def Entry.ofJson? : Json → Option Entry
  | .object members => do
    let id ← (Field.id (Json.lastMember? "id" members)).toOption
    let name ← Field.text? (Json.lastMember? "name" members)
    let topic ← Field.text? (Json.lastMember? "topic" members)
    let kind ← (Field.kind (Json.lastMember? "type" members)).toOption
    let address ← (Field.address (Json.lastMember? "address" members)).toOption
    some { id, name, topic, kind, address }
  | _ => none

/-- The change in a value. -/
def Change.ofJson? : Json → Option Change
  | .object members => do
    let event ← Field.text? (Json.lastMember? "event" members)
    if event = "registered" then
      let entry ← (Json.lastMember? "entry" members).bind Entry.ofJson?
      some (.registered entry)
    else if event = "unregistered" then
      let id ← (Field.id (Json.lastMember? "id" members)).toOption
      some (.unregistered id)
    else if event = "address-updated" then
      let id ← (Field.id (Json.lastMember? "id" members)).toOption
      let address ← (Field.address (Json.lastMember? "address" members)).toOption
      some (.addressUpdated id address)
    else none
  | _ => none

/-- The change that a notice tells. -/
def Notice.change? (notice : Notice) : Option Change :=
  (Json.parse? notice.payload).bind Change.ofJson?

/-! ## Making a change on a list -/

namespace Change

/-- Make a change on a list of entries.  An entry can only be added where there is none of its
identifier, and only an entry that is there can be taken out or get another address. -/
def applyTo? (ledger : List Entry) : Change → Option (List Entry)
  | registered entry =>
    match Ledger.lookup? ledger entry.id with
    | some _ => none
    | none => some (ledger ++ [entry])
  | unregistered id => (Ledger.lookup? ledger id).map fun _ => Ledger.without ledger id
  | addressUpdated id address =>
    (Ledger.lookup? ledger id).map fun _ => Ledger.readdress ledger id address

/-- Make changes one after the other, as long as they can be made. -/
def replay (ledger : List Entry) (changes : List Change) : Option (List Entry) :=
  changes.foldlM applyTo? ledger

/-- An entry was added. -/
def isRegistration : Change → Bool
  | registered _ => true
  | _ => false

end Change

/-! ## A notice is read back -/

/-- Some text reads as the address. -/
def Address.Readable (address : Address) : Prop := ∃ text, Address.read? text = some address

/-- The address that a change tells, if any, is one that some text reads as. -/
def Change.Readable : Change → Prop
  | registered entry => entry.address.Readable
  | unregistered _ => True
  | addressUpdated _ address => address.Readable

theorem Field.id_toText (id : Uuid) : Field.id (some (.string id.toText)) = .ok id := by
  simp [Field.id, Field.text?, Json.string?, Uuid.toText, Uuid.read?_write]

theorem Field.address_toText {address : Address} (h : address.Readable) :
    Field.address (some (.string address.toText)) = .ok address := by
  obtain ⟨text, htext⟩ := h
  simp [Field.address, Field.text?, Json.string?, Address.toText, Address.read?_write htext]

theorem Entry.ofJson?_toJson {entry : Entry} (h : entry.address.Readable) :
    Entry.ofJson? entry.toJson = some entry := by
  have hkind : Field.kind (some (.string entry.kind.name)) = .ok entry.kind := by
    simp [Field.kind, Field.text?, Json.string?, EndpointKind.ofName?_name]
  simp [Entry.ofJson?, Entry.toJson, Json.lastMember?, List.lookup_cons, Field.id_toText, hkind,
    Field.address_toText h, Field.text?, Json.string?, Except.toOption]

theorem Change.ofJson?_toJson {change : Change} (h : change.Readable) :
    Change.ofJson? change.toJson = some change := by
  cases change with
  | registered entry =>
    simp [Change.ofJson?, Change.toJson, Json.lastMember?, List.lookup_cons, Field.text?, Json.string?,
      Entry.ofJson?_toJson h]
  | unregistered id =>
    simp [Change.ofJson?, Change.toJson, Json.lastMember?, List.lookup_cons, Field.text?, Json.string?,
      Field.id_toText, Except.toOption]
  | addressUpdated id address =>
    simp [Change.ofJson?, Change.toJson, Json.lastMember?, List.lookup_cons, Field.text?, Json.string?,
      Field.id_toText, Field.address_toText h, Except.toOption]

/-- **A notice is read back** as the change that it was written for. -/
theorem Change.change?_notice {change : Change} (h : change.Readable) (origin : SessionId) :
    (change.notice origin).change? = some change := by
  rw [Notice.change?, Change.notice, Change.parse?_render, Option.bind_some,
    Change.ofJson?_toJson h]

/-! ## What a request does -/

theorem Field.readable_of_address {field : Option Json} {address : Address}
    (h : Field.address field = .ok address) : address.Readable := by
  rw [Field.address] at h
  split at h
  · next hread =>
    obtain rfl := Except.ok.inj h
    obtain ⟨text, -, htext⟩ := Option.bind_eq_some_iff.mp hread
    exact ⟨text.toList, htext⟩
  · cases h

/-- The fields of an entry are those of its draft, each of which passed its check. -/
theorem Draft.fields_of_validate {policy : Policy} {draft : Draft} {entry : Entry}
    (h : draft.validate policy = .ok entry) :
    Field.id draft.id = .ok entry.id ∧ Field.topic policy draft.topic = .ok entry.topic ∧
      Field.kind draft.kind = .ok entry.kind ∧ Field.address draft.address = .ok entry.address ∧
      Field.name draft.name = .ok entry.name := by
  unfold Draft.validate at h
  obtain ⟨id, hid, h⟩ := exists_of_bind_eq_ok h
  obtain ⟨topic, htopic, h⟩ := exists_of_bind_eq_ok h
  obtain ⟨kind, hkind, h⟩ := exists_of_bind_eq_ok h
  obtain ⟨address, haddress, h⟩ := exists_of_bind_eq_ok h
  obtain ⟨name, hname, h⟩ := exists_of_bind_eq_ok h
  obtain rfl := Except.ok.inj h
  exact ⟨hid, htopic, hkind, haddress, hname⟩

/-- What a request does to a table that stands for a list: nothing, or a change that its notice tells
and that can be made on the list as well. -/
inductive Directory.Does (store : Store) (registrations : Nat) (ledger : List Entry) :
    Directory.Applied → Prop
  | nothing (response : Response) : Does store registrations ledger { response, store }
  | change {response : Response} {change : Change} {next : Store} {after : List Entry}
    (readable : change.Readable) (applies : change.applyTo? ledger = some after)
    (represents : next.Represents (registrations + [change].countP Change.isRegistration) after) :
    Does store registrations ledger { response, change := some change, store := next }

namespace Directory

variable {store : Store} {registrations : Nat} {ledger : List Entry}

theorem does_register (h : store.Represents registrations ledger) {policy : Policy}
    {draft : Draft} : Does store registrations ledger (register policy store draft) := by
  rw [register]
  cases hv : draft.validate policy with
  | error rejection => exact .nothing _
  | ok entry =>
    simp only [Store.register]
    cases hs : store.slot? entry.id with
    | some slot => exact .nothing _
    | none =>
      have haddress := (Draft.fields_of_validate hv).2.2.2.1
      refine .change (Field.readable_of_address haddress) ?_ (h.add hs)
      rw [Change.applyTo?, h.lookup?, hs]
      rfl

theorem does_unregister (h : store.Represents registrations ledger) {id : Option Json} :
    Does store registrations ledger (unregister store id) := by
  rw [unregister]
  split
  · exact .nothing _
  · next id _ =>
    rw [Store.unregister]
    cases hs : store.slot? id with
    | none => exact .nothing _
    | some slot =>
      refine .change trivial ?_ (h.without id)
      rw [Change.applyTo?, h.lookup?, hs]
      rfl

theorem does_updateAddress (h : store.Represents registrations ledger) {id address : Option Json} :
    Does store registrations ledger (updateAddress store id address) := by
  rw [updateAddress]
  split
  · exact .nothing _
  · next id _ =>
    split
    · exact .nothing _
    · next address haddress =>
      rw [Store.updateAddress]
      cases hs : store.slot? id with
      | none => exact .nothing _
      | some slot =>
        refine .change (Field.readable_of_address haddress) ?_ (h.readdress id address)
        rw [Change.applyTo?, h.lookup?, hs]
        rfl

/-- **One request.**  It leaves the table as it is, or makes a change that its notice tells. -/
theorem does_apply (h : store.Represents registrations ledger) (policy : Policy) (request : Request) :
    Does store registrations ledger (apply policy store request) := by
  cases request with
  | list => exact .nothing _
  | unrecognized name => exact .nothing _
  | unregister id => exact does_unregister h
  | updateAddress id address => exact does_updateAddress h
  | register draft => exact does_register h

end Directory

end ServiceDirectory

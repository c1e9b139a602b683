import ServiceDirectory.Proofs.Directory.Transcript

/-!
# Export and import

A listing holds all that is needed to build the table again: the elements of its text, registered one
after the other in an empty directory of the same policy, are all accepted, and the listing of that
directory is the same text (`import_export`).

The invariant is that every entry of a table is accepted as a draft in its written form
(`Entry.IsAccepted`).  An entry comes from a draft that was accepted, and an address that replaces another
one was accepted as well.
-/

namespace ServiceDirectory

open Directory (Call Exchange)

/-! ## The texts of requests -/

/-- The text of a request, from its name and its other members. -/
def Request.write (name : String) (members : List (String × Json)) : String :=
  (Json.object (("request", .string name) :: members)).render

/-- The text that asks for the listing. -/
def Request.listText : String := write "list" []

/-- The text that asks to register an entry given as a value. -/
def Request.registerText (entry : Json) : String := write "register" [("entry", entry)]

/-- The elements of the member `list` in a text. -/
def Response.elements (text : String) : List Json :=
  match (Json.parse? text).bind (Json.member? "list") with
  | some (.array items) => items
  | _ => []

namespace Request

theorem value?_write (lenient : Bool) (name : String) {members : List (String × Json)}
    (h : ∀ member ∈ members, Json.Plain 126 member.2) :
    value? lenient (write name members) = some (.object (("request", .string name) :: members)) := by
  have hplain : Json.Plain Json.maxDepth (.object (("request", .string name) :: members)) := by
    intro member hm
    rcases List.mem_cons.mp hm with rfl | hm
    · exact trivial
    · exact h member hm
  rw [value?, write, Json.parse?_render hplain]

theorem parse_write (lenient : Bool) (name : String) {members : List (String × Json)}
    (h : ∀ member ∈ members, Json.Plain 126 member.2) :
    parse lenient (write name members) = ofMembers (("request", .string name) :: members) := by
  rw [parse, value?_write lenient name h]
  rfl

theorem parse_listText (lenient : Bool) : parse lenient listText = .list := by
  rw [listText, parse_write lenient "list" (by simp)]
  rfl

theorem parse_registerText (lenient : Bool) (entry : Entry) :
    parse lenient (registerText entry.toJson) = .register (Draft.ofJson (some entry.toJson)) := by
  have hplain : ∀ member ∈ [("entry", entry.toJson)], Json.Plain 126 member.2 := by
    intro member hm
    obtain rfl := List.mem_singleton.mp hm
    exact entry.plain_toJson 125
  rw [registerText, parse_write lenient "register" hplain]
  simp [ofMembers, Json.lastMember?, Json.string?, List.lookup_cons]

end Request

theorem Response.elements_listing (entries : List Entry) :
    elements (listing entries).render = entries.map Entry.toJson := by
  rw [elements, Response.parse?_render]
  simp [toJson, listing, Json.member?, Json.lastMember?]

/-! ## Entries that are accepted -/

/-- What a directory of some policy asks of an entry. -/
structure Entry.IsAccepted (policy : Policy) (entry : Entry) : Prop where
  topic : Field.topic policy (some (.string entry.topic)) = .ok entry.topic
  name : Field.name (some (.string entry.name)) = .ok entry.name
  address : entry.address.Readable

theorem Field.topic_string {policy : Policy} {field : Option Json} {topic : String}
    (h : Field.topic policy field = .ok topic) :
    Field.topic policy (some (.string topic)) = .ok topic := by
  simp only [Field.topic] at h
  split at h
  · split at h
    · next hvalid =>
      obtain rfl := Except.ok.inj h
      simp [Field.topic, Field.text?, Json.string?, hvalid]
    · cases h
  · cases h

theorem Field.name_string {field : Option Json} {name : String} (h : Field.name field = .ok name) :
    Field.name (some (.string name)) = .ok name := by
  simp only [Field.name] at h
  split at h
  · split at h
    · next hvalid =>
      obtain rfl := Except.ok.inj h
      simp [Field.name, Field.text?, Json.string?, hvalid]
    · cases h
  · cases h

namespace Entry

variable {policy : Policy} {entry : Entry}

theorem isAccepted_of_validate {draft : Draft} (h : draft.validate policy = .ok entry) :
    entry.IsAccepted policy := by
  obtain ⟨-, htopic, -, haddress, hname⟩ := Draft.fields_of_validate h
  exact
    { topic := Field.topic_string htopic
      name := Field.name_string hname
      address := Field.readable_of_address haddress }

theorem IsAccepted.readdress (h : entry.IsAccepted policy) {address : Address}
    (ha : address.Readable) : IsAccepted policy { entry with address } :=
  { h with address := ha }

/-- **An accepted entry is accepted in its written form**, as the entry that it is. -/
theorem IsAccepted.validate_toJson (h : entry.IsAccepted policy) :
    (Draft.ofJson (some entry.toJson)).validate policy = .ok entry := by
  have hkind : Field.kind (some (.string entry.kind.name)) = .ok entry.kind := by
    simp [Field.kind, Field.text?, Json.string?, EndpointKind.ofName?_name]
  have hdraft : Draft.ofJson (some entry.toJson) =
      { id := some (.string entry.id.toText)
        name := some (.string entry.name)
        topic := some (.string entry.topic)
        kind := some (.string entry.kind.name)
        address := some (.string entry.address.toText) } := by
    simp [Draft.ofJson, toJson, Draft.addressMember?, Json.lastMember?, List.lookup_cons]
  rw [hdraft]
  simp only [Draft.validate, Field.id_toText, h.topic, hkind, Field.address_toText h.address, h.name]
  rfl

end Entry

/-! ## Every entry of a table is accepted -/

namespace Directory

/-- Every entry of the table is accepted. -/
def AllAccepted (policy : Policy) (store : Store) : Prop :=
  ∀ slot ∈ store.slots, slot.entry.IsAccepted policy

variable {policy : Policy} {store : Store} {directory : Directory}

/-- **One request** leaves a table of accepted entries. -/
theorem AllAccepted.apply (h : AllAccepted policy store) (request : Request) :
    AllAccepted policy (apply policy store request).store := by
  cases request with
  | list => exact h
  | unrecognized name => exact h
  | register draft =>
    simp only [Directory.apply, register]
    cases hv : draft.validate policy with
    | error rejection => exact h
    | ok entry =>
      cases hs : store.slot? entry.id with
      | some slot => simpa only [Store.register, hs] using h
      | none =>
        simp only [Store.register, hs]
        intro slot hm
        rcases List.mem_cons.mp hm with rfl | hm
        · exact Entry.isAccepted_of_validate hv
        · exact h slot hm
  | unregister id =>
    simp only [Directory.apply, unregister]
    cases Field.id id with
    | error rejection => exact h
    | ok id =>
      cases hs : store.slot? id with
      | none => simpa only [Store.unregister, hs] using h
      | some found =>
        simp only [Store.unregister, hs]
        intro slot hm
        exact h slot (List.mem_of_mem_filter hm)
  | updateAddress id address =>
    simp only [Directory.apply, updateAddress]
    cases Field.id id with
    | error rejection => exact h
    | ok id =>
      cases ha : Field.address address with
      | error rejection => exact h
      | ok address =>
        cases hs : store.slot? id with
        | none => simpa only [Store.updateAddress, hs] using h
        | some found =>
          simp only [Store.updateAddress, hs]
          intro slot hm
          obtain ⟨before, hb, rfl⟩ := List.mem_map.mp hm
          split
          · exact (h before hb).readdress (Field.readable_of_address ha)
          · exact h before hb

/-- **The run**: so do many. -/
theorem allAccepted_afterCalls (directory : Directory)
    (h : AllAccepted directory.policy directory.store) (calls : List Call) :
    AllAccepted directory.policy (directory.afterCalls calls).store := by
  induction calls generalizing directory with
  | nil => exact h
  | cons call calls ih =>
    have hstep : AllAccepted directory.policy (directory.handleText call.1 call.2).2.store := by
      rw [store_handleText]
      exact h.apply _
    have hpolicy : (directory.handleText call.1 call.2).2.policy = directory.policy := by
      rw [handleText_eq]
    have hrest := ih (directory.handleText call.1 call.2).2
    rw [hpolicy] at hrest
    exact hrest hstep

/-! ## Registering what was listed -/

/-- Asking for the listing. -/
theorem handleText_listText (directory : Directory) (session : SessionId) :
    (directory.handleText session Request.listText).1 = .listing directory.store.toList := by
  rw [handleText_eq, Request.parse_listText]
  rfl

/-- **One entry**: where the identifier is not taken, an accepted entry is registered from its written
form. -/
theorem handleText_registerText {registrations : Nat} {ledger : List Entry}
    (h : directory.store.Represents registrations ledger) {entry : Entry}
    (haccepted : entry.IsAccepted directory.policy) (hnew : entry.id ∉ ledger.map Entry.id)
    (session : SessionId) :
    let handled := directory.handleText session (Request.registerText entry.toJson)
    handled.1 = .ok ∧ handled.2.policy = directory.policy ∧
      handled.2.store.Represents (registrations + 1) (ledger ++ [entry]) := by
  have hslot : directory.store.slot? entry.id = none := by
    have hlookup := h.lookup? entry.id
    rw [Ledger.lookup?, List.find?_eq_none.mpr] at hlookup
    · exact Option.map_eq_none_iff.mp hlookup.symm
    · intro other ho
      simpa using fun heq => hnew (List.mem_map.mpr ⟨other, ho, heq⟩)
  have happly : apply directory.policy directory.store
      (.register (Draft.ofJson (some entry.toJson))) =
        { response := .ok, change := some (.registered entry)
          store := { slots := ⟨directory.store.next, entry⟩ :: directory.store.slots
                     next := directory.store.next + 1 } } := by
    simp only [apply, register, haccepted.validate_toJson, Store.register, hslot]
  rw [handleText_eq, Request.parse_registerText, happly]
  exact ⟨rfl, rfl, h.add hslot⟩

/-- The calls that register entries given as values. -/
def registrations (session : SessionId) (entries : List Json) : List Call :=
  entries.map fun entry => (session, Request.registerText entry)

theorem registrations_cons (session : SessionId) (entry : Json) (entries : List Json) :
    registrations session (entry :: entries) =
      (session, Request.registerText entry) :: registrations session entries :=
  rfl

/-- **Many entries**: they are all registered, in their order behind those that are there. -/
theorem afterCalls_registrations (directory : Directory) {count : Nat} {ledger : List Entry}
    (h : directory.store.Represents count ledger) {entries : List Entry}
    (haccepted : ∀ entry ∈ entries, entry.IsAccepted directory.policy)
    (hnew : ((ledger ++ entries).map Entry.id).Nodup) (session : SessionId) :
    let calls := registrations session (entries.map Entry.toJson)
    (∀ exchange ∈ directory.transcript calls, exchange.response = .ok) ∧
      (directory.afterCalls calls).store.Represents (count + entries.length)
        (ledger ++ entries) := by
  induction entries generalizing directory count ledger with
  | nil =>
    refine ⟨nofun, ?_⟩
    rw [List.append_nil]
    exact h
  | cons entry entries ih =>
    have hfirst : entry.id ∉ ledger.map Entry.id := by
      rw [List.map_append, List.nodup_append] at hnew
      intro hm
      exact hnew.2.2 _ hm _ List.mem_cons_self rfl
    obtain ⟨hok, hpolicy, hnext⟩ :=
      handleText_registerText h (haccepted entry List.mem_cons_self) hfirst session
    have hrest := ih _ hnext
      (by rw [hpolicy]; exact fun other ho => haccepted other (List.mem_cons_of_mem _ ho))
      (by simpa using hnew)
    obtain ⟨hresponses, hlast⟩ := hrest
    simp only [List.map_cons, registrations_cons, transcript_cons, afterCalls_cons]
    rw [List.length_cons, Nat.add_comm entries.length, ← Nat.add_assoc, List.append_cons]
    refine ⟨?_, hlast⟩
    intro exchange he
    rcases List.mem_cons.mp he with rfl | he
    · rw [response_exchange]
      exact hok
    · exact hresponses exchange he

end Directory

/-- **Export and import reproduce the table.**  Whatever requests were handled from an empty table on:
the elements of the listing, registered one after the other in an empty directory of the same policy,
are all accepted, and the table that they make holds the same entries.  As long as a word of 64 bits
counts the entries, as it does in any memory, the text of its listing is the text that was exported.
Neither the quotes that the directories allow nor their channels matter. -/
theorem import_export (policy : Policy) (lenient lenient' : Bool)
    (feed feed' : Option (Channel Notice)) (calls : List Call) (session : SessionId) :
    let source := ({ policy, feed, lenient } : Directory).afterCalls calls
    let exported := (source.handleText session Request.listText).1.render
    let fresh : Directory := { policy, feed := feed', lenient := lenient' }
    let imports := Directory.registrations session (Response.elements exported)
    let target := fresh.afterCalls imports
    (∀ exchange ∈ fresh.transcript imports,
        exchange.response = { success := true, message := "OK" }) ∧
      target.store.toList.Perm source.store.toList ∧
      (source.store.size < 2 ^ 64 →
        (target.handleText session Request.listText).1.render = exported) := by
  intro source exported fresh imports target
  have hbegin : ({ policy, feed, lenient } : Directory).store.Represents 0 [] :=
    Store.represents_empty
  obtain ⟨-, ledger, -, hsource⟩ := Directory.replay_afterCalls hbegin calls
  have hlisted := hsource.listed
  have hall : Directory.AllAccepted policy source.store :=
    Directory.allAccepted_afterCalls { policy, feed, lenient } nofun calls
  have haccepted : ∀ entry ∈ source.store.toList, entry.IsAccepted policy := by
    intro entry he
    obtain ⟨slot, hs, rfl⟩ := List.mem_map.mp (hlisted.perm.mem_iff.mp he)
    exact hall slot hs
  have himports :
      imports = Directory.registrations session (source.store.toList.map Entry.toJson) := by
    simp only [imports, exported, Directory.handleText_listText, Response.elements_listing]
  obtain ⟨hok, htarget⟩ := fresh.afterCalls_registrations
    Store.represents_empty haccepted hlisted.unique session
  rw [← himports] at hok htarget
  refine ⟨hok, htarget.perm_toList.symm, ?_⟩
  intro hfew
  rw [hlisted.size] at hfew
  have hsame : target.store.toList = source.store.toList := htarget.toList (by simpa using hfew)
  rw [Directory.handleText_listText, hsame, ← Directory.handleText_listText source session]

end ServiceDirectory

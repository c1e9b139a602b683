import ServiceDirectory.Proofs.Directory.Identifiers

/-!
# Addresses are treated alike

An address is sent with an entry that is registered, or later for an entry that is there.  It comes to the
same: what is refused in the one way is refused in the other, and what is accepted leaves the same table,
whichever of the two names the address goes by (`registered_alike`).

On the side of the table, an entry that was just registered and gets another address might have been
registered with that address (`Store.updateAddress_of_register`).  On the side of the requests, the members
of an update are searched for the address as those of an entry are, so that both hold the same
(`Draft.sent?_congr`), and all that is left are the checks around it (`Directory.updateAddress_inOrder`).
-/

namespace ServiceDirectory

/-! ## The table -/

namespace Store

variable {store next : Store} {entry : Entry}

theorem slot?_eq_none_iff {id : Uuid} : store.slot? id = none ↔ store.get? id = none :=
  Option.map_eq_none_iff.symm

theorem register_of_absent (entry : Entry) (h : store.get? entry.id = none) :
    store.register entry =
      .ok { slots := ⟨store.next, entry⟩ :: store.slots, next := store.next + 1 } := by
  rw [register, slot?_eq_none_iff.mpr h]

/-- **A new entry that gets another address** might have been registered with it: the table is the same, the
number of the next registration included. -/
theorem updateAddress_of_register (habsent : store.get? entry.id = none)
    (h : store.register entry = .ok next) (address : Address) :
    next.updateAddress entry.id address = store.register { entry with address } := by
  rw [register_of_absent entry habsent] at h
  obtain rfl := Except.ok.inj h
  have hothers : ∀ slot ∈ store.slots, ¬ slot.Holds entry.id := by
    simpa using List.find?_eq_none.mp (slot?_eq_none_iff.mpr habsent)
  have hkept : (store.slots.map fun slot =>
      if slot.Holds entry.id then { slot with entry := { slot.entry with address } } else slot) =
        store.slots := by
    refine (List.map_congr_left fun slot hm => ?_).trans (List.map_id _)
    exact if_neg (hothers slot hm)
  have hnew : Slot.Holds entry.id ⟨store.next, entry⟩ := rfl
  have hfound : slot? { slots := ⟨store.next, entry⟩ :: store.slots, next := store.next + 1 }
      entry.id = some ⟨store.next, entry⟩ := List.find?_cons_of_pos (decide_eq_true hnew)
  have hagain : store.register { entry with address } =
      .ok { slots := ⟨store.next, { entry with address }⟩ :: store.slots, next := store.next + 1 } :=
    register_of_absent { entry with address } habsent
  rw [updateAddress, hfound, hagain]
  simp only [List.map_cons, if_pos hnew, hkept]

end Store

/-! ## The drafts -/

namespace Draft

variable {policy : Policy} {given other : Option Json}

/-- Where the same is sent for a field, the drafts hold the same. -/
theorem sent?_congr (field : Rejection) (h : ∀ name ∈ memberNames field, ∀ value,
    Sends given name value ↔ Sends other name value) :
    (ofJson given).sent? field = (ofJson other).sent? field :=
  Option.ext fun value => by rw [sent?_ofJson, sent?_ofJson, sendsFor_congr h]

/-- With the other fields settled, all depends on the address. -/
theorem validate_eq_map {draft : Draft} {id : Uuid} {topic name : String} {kind : EndpointKind}
    (hid : Field.id draft.id = .ok id) (htopic : Field.topic policy draft.topic = .ok topic)
    (hkind : Field.kind draft.kind = .ok kind) (hname : Field.name draft.name = .ok name) :
    draft.validate policy =
      (Field.address draft.address).map fun address => { id, name, topic, kind, address } := by
  rw [validate, hid, htopic, hkind, hname]
  cases Field.address draft.address <;> rfl

/-- Two ways to an entry: with its address at once, or with another address first and the members of an
update after that.  All but the address is acceptable, and so is the address that comes first. -/
structure TwoWays (policy : Policy) (entry begun update : Option Json) : Prop where
  /-- All but the address of the entry is acceptable. -/
  met : ∀ field ≠ .address, Meets policy entry field
  /-- The entry that is registered first is the same but for the address. -/
  same : ∀ field ≠ .address, ∀ name ∈ memberNames field, ∀ value,
    Sends begun name value ↔ Sends entry name value
  /-- The address that is replaced is acceptable. -/
  valid : Meets policy begun .address
  /-- The update is for the identifier of the entry, and sends its address under the same names. -/
  update : ∀ field ∈ [.id, .address], ∀ name ∈ memberNames field, ∀ value,
    Sends update name value ↔ Sends entry name value

end Draft

namespace Directory

/-! ## The two ways -/

variable {policy : Policy} {store : Store} {entry begun update : Option Json}

/-- What registering comes to where the identifier is not taken. -/
theorem register_of_validate {draft : Draft} {registered : Entry} {next : Store}
    (hv : draft.validate policy = .ok registered) (hs : store.register registered = .ok next) :
    register policy store draft =
      { response := .ok, change := some (.registered registered), store := next } := by
  rw [register, hv]
  simp only [hs]

/-- **On the table, the two ways are one**: the address is refused in both, or they lead to the same
table. -/
theorem updateAddress_of_register (h : Draft.TwoWays policy entry begun update)
    (habsent : ∀ id : Uuid, Draft.SendsFor entry .id (.string id.toText) → store.get? id = none) :
    let atOnce := register policy store (Draft.ofJson entry)
    let first := register policy store (Draft.ofJson begun)
    let second := updateAddress first.store (Draft.ofJson update).id (Draft.ofJson update).address
    first.response = .ok ∧
      ((atOnce.response = .rejected .address ∧ second.response = .rejected .address) ∨
        (atOnce.response = .ok ∧ second.response = .ok ∧ second.store = atOnce.store)) := by
  have hsame : ∀ field ≠ .address, (Draft.ofJson begun).sent? field = (Draft.ofJson entry).sent? field :=
    fun field hne => Draft.sent?_congr field (h.same field hne)
  have hid_update : (Draft.ofJson update).id = (Draft.ofJson entry).id :=
    Draft.sent?_congr .id (h.update .id (by simp))
  have haddress_update : (Draft.ofJson update).address = (Draft.ofJson entry).address :=
    Draft.sent?_congr .address (h.update .address (by simp))
  -- all that is acceptable
  obtain ⟨id, hid⟩ := (Draft.settles_id policy entry).met_iff.mp (h.met .id nofun)
  obtain ⟨topic, htopic⟩ := (Draft.settles_topic policy entry).met_iff.mp (h.met .topic nofun)
  obtain ⟨kind, hkind⟩ := (Draft.settles_kind policy entry).met_iff.mp (h.met .kind nofun)
  obtain ⟨name, hname⟩ := (Draft.settles_name policy entry).met_iff.mp (h.met .name nofun)
  obtain ⟨before, hbefore⟩ := (Draft.settles_address policy begun).met_iff.mp h.valid
  -- the entry that is registered first
  have hbegun : (Draft.ofJson begun).validate policy =
      .ok { id, name, topic, kind, address := before } := by
    rw [Draft.validate_eq_map ((congrArg Field.id (hsame .id nofun)).trans hid)
      ((congrArg (Field.topic policy) (hsame .topic nofun)).trans htopic)
      ((congrArg Field.kind (hsame .kind nofun)).trans hkind)
      ((congrArg Field.name (hsame .name nofun)).trans hname), hbefore]
    rfl
  have hnone : store.get? id = none := by
    obtain ⟨text, hsent, rfl⟩ := ((Draft.settles_id policy entry).ok_iff id).mp hid
    exact habsent id hsent
  have hnext := Store.register_of_absent { id, name, topic, kind, address := before } hnone
  generalize ({ slots := _, next := _ } : Store) = next at hnext
  simp only [register_of_validate hbegun hnext, updateAddress, hid_update, hid, haddress_update, true_and]
  have hentry := Draft.validate_eq_map hid htopic hkind hname
  cases haddress : Field.address (Draft.ofJson entry).address with
  | error rejection =>
    obtain ⟨rfl, -⟩ := ((Draft.settles_address policy entry).error_iff rejection).mp haddress
    rw [haddress] at hentry
    exact .inl ⟨by rw [register, hentry]; rfl, rfl⟩
  | ok address =>
    rw [haddress] at hentry
    have hregister := Store.register_of_absent { id, name, topic, kind, address } hnone
    generalize ({ slots := _, next := _ } : Store) = last at hregister
    have hupdate : next.updateAddress id address = .ok last :=
      (Store.updateAddress_of_register hnone hnext address).trans hregister
    rw [register_of_validate hentry hregister]
    exact .inr ⟨rfl, by simp only [hupdate], by simp only [hupdate]⟩

/-! ## The requests -/

/-- A text asks to register an entry with these members. -/
def AsksToRegister (lenient : Bool) (text : String) (entry : List (String × Json)) : Prop :=
  ∃ members, Request.value? lenient text = some (.object members) ∧
    Json.lastMember? "request" members = some (.string "register") ∧
    Json.lastMember? "entry" members = some (.object entry)

/-- A text with these members asks to replace the address of an entry. -/
def AsksToReaddress (lenient : Bool) (text : String) (members : List (String × Json)) : Prop :=
  Request.value? lenient text = some (.object members) ∧
    Json.lastMember? "request" members = some (.string "update-address")

theorem AsksToRegister.parse {lenient : Bool} {text : String} {entry : List (String × Json)}
    (h : AsksToRegister lenient text entry) :
    Request.parse lenient text = .register (Draft.ofJson (some (.object entry))) := by
  obtain ⟨members, hvalue, hname, hentry⟩ := h
  simp [Request.parse, hvalue, Request.ofJson, Request.ofMembers, hname, hentry, Json.string?]

/-- The members of such a request are found as those of an entry are. -/
theorem AsksToReaddress.parse {lenient : Bool} {text : String} {members : List (String × Json)}
    (h : AsksToReaddress lenient text members) :
    let draft := Draft.ofJson (some (.object members))
    Request.parse lenient text = .updateAddress draft.id draft.address := by
  obtain ⟨hvalue, hname⟩ := h
  simp [Request.parse, hvalue, Request.ofJson, Request.ofMembers, hname, Json.string?, Draft.ofJson]

theorem asksToRegister_write (lenient : Bool) {entry : List (String × Json)}
    (h : Json.Plain 126 (.object entry)) :
    AsksToRegister lenient (Request.write "register" [("entry", .object entry)]) entry := by
  have hplain : ∀ member ∈ [("entry", Json.object entry)], Json.Plain 126 member.2 := by
    intro member hm
    obtain rfl := List.mem_singleton.mp hm
    exact h
  exact ⟨_, Request.value?_write lenient "register" hplain, rfl, rfl⟩

/-! ## The order of the checks -/

/-- What an update is answered, by what is sent for the identifier and the address: the identifier is checked
first, then the address, and then whether there is an entry of the identifier. -/
structure ChecksInOrder (policy : Policy) (store : Store) (update : Option Json) (answer : Response) :
    Prop where
  invalidId : answer = .failure "Invalid ID" ↔ ¬ Draft.Meets policy update .id
  invalidAddress : answer = .failure "Invalid address" ↔
    Draft.Meets policy update .id ∧ ¬ Draft.Meets policy update .address
  unknownId : answer = .failure "Unknown ID" ↔
    Draft.Meets policy update .id ∧ Draft.Meets policy update .address ∧
      ∀ id : Uuid, Draft.SendsFor update .id (.string id.toText) → store.get? id = none
  ok : answer = .ok ↔
    Draft.Meets policy update .id ∧ Draft.Meets policy update .address ∧
      ∃ id : Uuid, Draft.SendsFor update .id (.string id.toText) ∧ store.get? id ≠ none

/-- **An update is checked in order**, whatever is in the table. -/
theorem updateAddress_inOrder (policy : Policy) (store : Store) (update : Option Json) :
    ChecksInOrder policy store update
      (updateAddress store (Draft.ofJson update).id (Draft.ofJson update).address).response := by
  have hids := Draft.settles_id policy update
  have haddresses := Draft.settles_address policy update
  cases hid : Field.id (Draft.ofJson update).id with
  | error rejection =>
    obtain ⟨rfl, hunmet⟩ := (hids.error_iff rejection).mp hid
    simp only [updateAddress, hid, Response.rejected, Rejection.message]
    constructor <;> simp [Response.failure, Response.ok, hunmet]
  | ok id =>
    have hmet : Draft.Meets policy update .id := hids.met_iff.mpr ⟨id, hid⟩
    cases haddress : Field.address (Draft.ofJson update).address with
    | error rejection =>
      obtain ⟨rfl, hunmet⟩ := (haddresses.error_iff rejection).mp haddress
      simp only [updateAddress, hid, haddress, Response.rejected, Rejection.message]
      constructor <;> simp [Response.failure, Response.ok, hmet, hunmet]
    | ok address =>
      have hmet' : Draft.Meets policy update .address := haddresses.met_iff.mpr ⟨address, haddress⟩
      have hsent : ∀ other : Uuid, Draft.SendsFor update .id (.string other.toText) ↔ id = other := by
        intro other
        have hother := hids.ok_iff other
        rw [hid] at hother
        simpa using hother.symm
      cases hs : store.slot? id with
      | none =>
        have hnone : store.get? id = none := Store.slot?_eq_none_iff.mp hs
        simp only [updateAddress, hid, haddress, Store.updateAddress, hs, Response.refused]
        constructor <;> simp [Response.failure, Response.ok, hmet, hmet', hsent, hnone]
      | some slot =>
        have hsome : store.get? id ≠ none := fun hnone => by
          simp [Store.slot?_eq_none_iff.mpr hnone] at hs
        simp only [updateAddress, hid, haddress, Store.updateAddress, hs]
        constructor <;> simp [Response.failure, Response.ok, hmet, hmet', hsent, hsome]

end Directory

/-- **Registered alike.**  In every state, an entry of an identifier that is not there may be registered with
its address at once, or with another one that is then replaced.  The address is refused in both ways or in
neither, whichever of its names it is sent under and whatever is sent; and where it is not refused, all is
answered with success and the tables are the same, in their order and in the number of the next registration.
In every state, what is answered to an update follows from the checks in their order. -/
theorem registered_alike :
    (∀ (directory : Directory) (s₁ s₂ s₃ : SessionId) (direct first second : String)
      (entry begun update : List (String × Json)),
      Directory.AsksToRegister directory.lenient direct entry →
      Directory.AsksToRegister directory.lenient first begun →
      Directory.AsksToReaddress directory.lenient second update →
      Draft.TwoWays directory.policy (some (.object entry)) (some (.object begun))
        (some (.object update)) →
      (∀ id : Uuid, Draft.Sends (some (.object entry)) "id" (.string id.toText) →
        directory.store.get? id = none) →
      let atOnce := directory.handleText s₁ direct
      let started := directory.handleText s₂ first
      let replaced := started.2.handleText s₃ second
      started.1 = .ok ∧
        (atOnce.1 = .failure "Invalid address" ↔ replaced.1 = .failure "Invalid address") ∧
        (atOnce.1 ≠ .failure "Invalid address" →
          atOnce.1 = .ok ∧ replaced.1 = .ok ∧ replaced.2.store = atOnce.2.store)) ∧
    ∀ (directory : Directory) (session : SessionId) (text : String) (update : List (String × Json)),
      Directory.AsksToReaddress directory.lenient text update →
      Directory.ChecksInOrder directory.policy directory.store (some (.object update))
        (directory.handleText session text).1 := by
  constructor
  · intro directory s₁ s₂ s₃ direct first second entry begun update hdirect hfirst hsecond h habsent
    have hways := Directory.updateAddress_of_register h habsent
    simp only [Directory.handleText_eq, hdirect.parse, hfirst.parse, hsecond.parse, Directory.apply]
    obtain ⟨hok, ⟨hrefused, hrefused'⟩ | ⟨hok', hok'', hstore⟩⟩ := hways
    · exact ⟨hok, iff_of_true hrefused hrefused', fun hne => absurd hrefused hne⟩
    · have hne : Response.ok ≠ .failure "Invalid address" := (Directory.rejected_ne_ok .address).symm
      exact ⟨hok, iff_of_false (hok'.trans_ne hne) (hok''.trans_ne hne), fun _ => ⟨hok', hok'', hstore⟩⟩
  · intro directory session text update h
    rw [Directory.handleText_eq, h.parse]
    exact Directory.updateAddress_inOrder _ _ _

/-- An address under its other name, in place of one under its usual name. -/
theorem registered_alike_of_other_name :
    let others := [("id", .string "00000000-0000-0000-0000-000000000001"), ("name", .string "a"),
      ("topic", .string "clock"), ("type", .string "service")]
    let entry := ("addr", Json.string "c:2") :: others
    let begun := others ++ [("address", .string "c:1")]
    let update := [("request", .string "update-address"),
      ("id", .string "00000000-0000-0000-0000-000000000001"), ("addr", .string "c:2")]
    let directory : Directory := { lenient := false }
    let direct := Request.write "register" [("entry", .object entry)]
    let first := Request.write "register" [("entry", .object begun)]
    let second := Request.write "update-address" update.tail
    (Directory.AsksToRegister false direct entry ∧ Directory.AsksToRegister false first begun ∧
        Directory.AsksToReaddress false second update ∧
        Draft.TwoWays {} (some (.object entry)) (some (.object begun)) (some (.object update))) ∧
      let atOnce := directory.handleText 1 direct
      let replaced := (directory.handleText 1 first).2.handleText 2 second
      atOnce.1 = .ok ∧ replaced.1 = .ok ∧ replaced.2.store = atOnce.2.store := by
  intro others entry begun update directory direct first second
  have hdirect : Directory.AsksToRegister false direct entry :=
    Directory.asksToRegister_write false (Json.plain_of_texts (by simp [entry, others]) 125)
  have hfirst : Directory.AsksToRegister false first begun :=
    Directory.asksToRegister_write false (Json.plain_of_texts (by simp [begun, others]) 125)
  have hsecond : Directory.AsksToReaddress false second update :=
    ⟨Request.value?_write false "update-address" (by simp [update, Json.Plain]), rfl⟩
  have hways : Draft.TwoWays {} (some (.object entry)) (some (.object begun)) (some (.object update)) :=
    { met := by
        intro field hne
        cases field with
        | id => exact (Draft.settles_id {} _).met_iff.mpr ⟨⟨1⟩, rfl⟩
        | topic => exact (Draft.settles_topic {} _).met_iff.mpr ⟨"clock", rfl⟩
        | kind => exact (Draft.settles_kind {} _).met_iff.mpr ⟨.service, rfl⟩
        | name => exact (Draft.settles_name {} _).met_iff.mpr ⟨"a", rfl⟩
        | address => exact absurd rfl hne
      same := by
        intro field hne name hn
        refine Draft.sends_congr ?_
        cases field with
        | address => exact absurd rfl hne
        | id | topic | kind | name =>
          obtain rfl := List.mem_singleton.mp hn
          rfl
      valid := (Draft.settles_address {} _).met_iff.mpr ⟨_, rfl⟩
      update := by
        intro field hfield name hn
        refine Draft.sends_congr ?_
        simp only [List.mem_cons, List.not_mem_nil, or_false] at hfield
        rcases hfield with rfl | rfl
        · obtain rfl := List.mem_singleton.mp hn
          rfl
        · simp only [Draft.memberNames, List.mem_cons, List.not_mem_nil, or_false] at hn
          rcases hn with rfl | rfl <;> rfl }
  obtain ⟨-, -, hsame⟩ := registered_alike.1 directory 1 1 2 direct first second entry begun update
    hdirect hfirst hsecond hways fun _ _ => rfl
  have haccepted : (directory.handleText 1 direct).1 ≠ .failure "Invalid address" := by
    rw [Directory.handleText_eq, hdirect.parse]
    decide +kernel
  exact ⟨⟨hdirect, hfirst, hsecond, hways⟩, hsame haccepted⟩

end ServiceDirectory

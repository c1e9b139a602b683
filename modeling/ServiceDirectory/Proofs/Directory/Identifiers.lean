import ServiceDirectory.Proofs.Directory.Export
import ServiceDirectory.Proofs.Directory.Separation
import ServiceDirectory.Proofs.Entry.Acceptance

/-!
# Identifiers stay as they are sent

A client names an entry by the text of its identifier.  Of all values of JSON, exactly the written forms
are accepted, each for the identifier that it is the written form of (`Field.id_eq_ok_iff`).  So the texts
that clients send are as good as the identifiers: a notice tells the text that the request sent, and the
listing shows the texts that were registered and not taken out since (`mem_idTexts_afterCalls`).

The check is also said as it can be carried out, in two steps: the shape of the bytes, and then the reader
that takes other forms as well, which does not fail any more (`ids_as_sent`).
-/

namespace ServiceDirectory

open Directory (Call Exchange)

/-- **An identifier is accepted** where its written form is sent, and nowhere else. -/
theorem Field.id_eq_ok_iff {field : Option Json} {id : Uuid} :
    Field.id field = .ok id ↔ field = some (.string id.toText) := by
  constructor
  · intro h
    rw [Field.id] at h
    split at h
    case h_2 => cases h
    next hread =>
    obtain rfl := Except.ok.inj h
    obtain ⟨text, htext, hread⟩ := Option.bind_eq_some_iff.mp hread
    rw [text?_eq_some_iff.mp htext, Uuid.toText, Uuid.read?_eq_some_iff.mp hread,
      String.ofList_toList]
  · rintro rfl
    exact id_toText id

/-- What is sent for an identifier that is accepted is its text and no other. -/
theorem Field.eq_string_iff {field : Option Json} {id : Uuid} (h : Field.id field = .ok id)
    {sent : String} : field = some (.string sent) ↔ sent = id.toText := by
  rw [id_eq_ok_iff.mp h, Option.some.injEq, Json.string.injEq, eq_comm]

/-- **Two steps**: the shape of the bytes decides whether a text is accepted, and the liberal reader then
says for which identifier. -/
theorem Field.id_in_steps (text : String) :
    (Uuid.Shape (Utf8.encode text.toList) → ∃ id, Uuid.readAnyForm? text.toList = some id ∧
        Field.id (some (.string text)) = .ok id) ∧
      (¬ Uuid.Shape (Utf8.encode text.toList) → Field.id (some (.string text)) = .error .id) := by
  rw [Uuid.shape_iff_form, Uuid.form_iff]
  constructor
  · rintro ⟨id, hwrite⟩
    have htext : id.toText = text := by rw [Uuid.toText, hwrite, String.ofList_toList]
    exact ⟨id, hwrite ▸ id.readAnyForm?_write, htext ▸ id_toText id⟩
  · intro hshape
    cases hread : Uuid.read? text.toList with
    | none => simp [Field.id, text?, Json.string?, hread]
    | some id => exact absurd ⟨id, Uuid.read?_eq_some_iff.mp hread⟩ hshape

/-! ## The texts of identifiers -/

/-- What a request sends for the identifier that it names. -/
def Request.id? : Request → Option Json
  | list => none
  | register draft => draft.id
  | unregister id => id
  | updateAddress id _ => id
  | unrecognized _ => none

/-- The identifier that a request names is what it sends for it, if this is accepted. -/
theorem Request.named?_eq (request : Request) : request.named? = (Field.id request.id?).toOption := by
  cases request <;> rfl

/-- The text of the member `id` of a value. -/
def Json.idText? (value : Json) : Option String := (value.member? "id").bind string?

/-- The text of the identifier that a notice tells: that of its entry, where it has one. -/
def Notice.idText? (notice : Notice) : Option String :=
  (Json.parse? notice.payload).bind fun value => ((value.member? "entry").getD value).idText?

/-- The texts of the identifiers in the text of a listing. -/
def Response.idTexts (text : String) : List String := (elements text).filterMap Json.idText?

/-- The texts of the identifiers that a client of a directory is shown. -/
def Directory.listedIds (directory : Directory) (session : SessionId) : List String :=
  Response.idTexts (directory.handleText session Request.listText).1.render

theorem Entry.idText?_toJson (entry : Entry) : entry.toJson.idText? = some entry.id.toText := by
  simp [Json.idText?, toJson, Json.member?, Json.lastMember?, List.lookup_cons, Json.string?]

/-- A notice tells the identifier that its change is about. -/
theorem Change.idText?_notice (change : Change) (origin : SessionId) :
    (change.notice origin).idText? = some change.id.toText := by
  rw [Notice.idText?, notice, parse?_render, Option.bind_some]
  cases change with
  | registered entry =>
    have hentry : (toJson (registered entry)).member? "entry" = some entry.toJson := by
      simp [toJson, Json.member?, Json.lastMember?]
    rw [hentry]
    exact entry.idText?_toJson
  | unregistered | addressUpdated =>
    simp [toJson, Change.id, Json.idText?, Json.member?, Json.lastMember?, List.lookup_cons,
      Json.string?]

namespace Directory

variable {policy : Policy} {store : Store} {directory : Directory} {sent : String}

/-! ## What one request does to the texts -/

/-- The texts of the identifiers in a table. -/
def idTexts (store : Store) : List String := store.slots.map (·.entry.id.toText)

/-- A listing shows the texts of the identifiers in the table. -/
theorem mem_listedIds (directory : Directory) (session : SessionId) (sent : String) :
    sent ∈ directory.listedIds session ↔ sent ∈ idTexts directory.store := by
  have hread : Json.idText? ∘ Entry.toJson = some ∘ (·.id.toText) :=
    funext fun entry => entry.idText?_toJson
  have hlisted : directory.listedIds session = directory.store.toList.map (·.id.toText) := by
    rw [listedIds, handleText_listText, Response.idTexts, Response.elements_listing,
      List.filterMap_map, hread, List.filterMap_eq_map]
  have hheld : idTexts directory.store = (directory.store.slots.map (·.entry)).map (·.id.toText) := by
    rw [List.map_map]
    rfl
  rw [hlisted, hheld]
  exact (((List.mergeSort_perm _ _).map _).map _).mem_iff

/-- Taking out the entry of an identifier takes its text out, and no other. -/
theorem mem_idTexts_without (store : Store) (id : Uuid) (sent : String) :
    sent ∈ idTexts { store with slots := store.slots.filter fun slot => ¬ slot.Holds id } ↔
      sent ∈ idTexts store ∧ sent ≠ id.toText := by
  simp only [idTexts, List.mem_map, List.mem_filter]
  constructor
  · rintro ⟨slot, ⟨hmem, hkept⟩, rfl⟩
    exact ⟨⟨slot, hmem, rfl⟩, fun heq => of_decide_eq_true hkept (Uuid.toText_inj.mp heq)⟩
  · rintro ⟨⟨slot, hmem, rfl⟩, hne⟩
    exact ⟨slot, ⟨hmem, decide_eq_true fun heq => hne (congrArg Uuid.toText heq)⟩, rfl⟩

/-- Another address leaves the texts as they are. -/
theorem idTexts_readdress (store : Store) (id : Uuid) (address : Address) :
    idTexts { store with
        slots := store.slots.map fun slot =>
          if slot.Holds id then { slot with entry := { slot.entry with address } } else slot } =
      idTexts store := by
  unfold idTexts
  rw [List.map_map]
  refine List.map_congr_left fun slot _ => ?_
  rw [Function.comp_apply]
  split <;> rfl

theorem rejected_ne_ok (rejection : Rejection) : Response.rejected rejection ≠ .ok := by
  intro h
  exact Bool.false_ne_true (congrArg Response.success h)

theorem refused_ne_ok (error : StoreError) : Response.refused error ≠ .ok := by
  intro h
  cases error <;> exact Bool.false_ne_true (congrArg Response.success h)

/-- **One request**: the texts that are held after it are those that were held before, less the one that it
takes out, and the one that it registers. -/
theorem mem_idTexts_apply (policy : Policy) (store : Store) (request : Request) (sent : String) :
    let applied := apply policy store request
    sent ∈ idTexts applied.store ↔
      (sent ∈ idTexts store ∧
          ¬ (applied.response = .ok ∧ request = .unregister (some (.string sent)))) ∨
        (applied.response = .ok ∧
          ∃ draft, request = .register draft ∧ draft.id = some (.string sent)) := by
  intro applied
  cases request with
  | list => simp [applied, apply]
  | unrecognized name => simp [applied, apply]
  | register draft =>
    simp only [applied, apply, register]
    cases hv : draft.validate policy with
    | error rejection => simp [rejected_ne_ok]
    | ok entry =>
      cases hs : store.slot? entry.id with
      | some slot => simp [Store.register, hs, refused_ne_ok]
      | none =>
        have hid := (Draft.fields_of_validate hv).1
        simp [Store.register, hs, idTexts, Field.eq_string_iff hid, or_comm]
  | unregister field =>
    simp only [applied, apply, unregister]
    cases hid : Field.id field with
    | error rejection => simp [rejected_ne_ok]
    | ok id =>
      cases hs : store.slot? id with
      | none => simp [Store.unregister, hs, refused_ne_ok]
      | some slot =>
        simp only [Store.unregister, hs, mem_idTexts_without]
        simp [Field.eq_string_iff hid]
  | updateAddress field address =>
    simp only [applied, apply, updateAddress]
    cases Field.id field with
    | error rejection => simp
    | ok id =>
      cases Field.address address with
      | error rejection => simp
      | ok address =>
        cases hs : store.slot? id with
        | none => simp [Store.updateAddress, hs]
        | some found => simp [Store.updateAddress, hs, idTexts_readdress]

/-! ## Runs -/

/-- The call registered an entry, and this is what it sent for the identifier. -/
def Exchange.Registers (lenient : Bool) (sent : String) (exchange : Exchange) : Prop :=
  exchange.response = .ok ∧
    ∃ draft, Request.parse lenient exchange.call.2 = .register draft ∧ draft.id = some (.string sent)

/-- The call took an entry out, and this is what it sent for the identifier. -/
def Exchange.Removes (lenient : Bool) (sent : String) (exchange : Exchange) : Prop :=
  exchange.response = .ok ∧
    Request.parse lenient exchange.call.2 = .unregister (some (.string sent))

theorem mem_idTexts_handleText (directory : Directory) (call : Call) (sent : String) :
    sent ∈ idTexts (directory.handleText call.1 call.2).2.store ↔
      (sent ∈ idTexts directory.store ∧ ¬ (directory.exchange call).Removes directory.lenient sent) ∨
        (directory.exchange call).Registers directory.lenient sent := by
  rw [Exchange.Removes, Exchange.Registers, response_exchange, handleText_eq]
  exact mem_idTexts_apply directory.policy directory.store _ sent

/-- **The run**: the texts that are held after some calls are those that were registered, or there from the
start, and since then not taken out. -/
theorem mem_idTexts_afterCalls (directory : Directory) (calls : List Call) (sent : String) :
    sent ∈ idTexts (directory.afterCalls calls).store ↔
      (sent ∈ idTexts directory.store ∧
          ∀ exchange ∈ directory.transcript calls, ¬ exchange.Removes directory.lenient sent) ∨
        ∃ before exchange after, directory.transcript calls = before ++ exchange :: after ∧
          exchange.Registers directory.lenient sent ∧
          ∀ later ∈ after, ¬ later.Removes directory.lenient sent := by
  induction calls generalizing directory with
  | nil => simp [afterCalls, transcript]
  | cons call calls ih =>
    rw [afterCalls_cons, ih, lenient_handleText, mem_idTexts_handleText, transcript_cons,
      List.forall_mem_cons]
    generalize directory.exchange call = first
    generalize (directory.handleText call.1 call.2).2.transcript calls = others
    -- a text that was registered by the first call has no call before it
    constructor
    · rintro (⟨⟨hheld, hkept⟩ | hregistered, hothers⟩ | ⟨before, exchange, after, rfl, hrest⟩)
      · exact .inl ⟨hheld, hkept, hothers⟩
      · exact .inr ⟨[], first, others, rfl, hregistered, hothers⟩
      · exact .inr ⟨first :: before, exchange, after, rfl, hrest⟩
    · rintro (⟨hheld, hkept, hothers⟩ | ⟨before, exchange, after, heq, hregistered, hothers⟩)
      · exact .inl ⟨.inl ⟨hheld, hkept⟩, hothers⟩
      · cases before with
        | nil =>
          obtain ⟨rfl, rfl⟩ := List.cons.inj heq
          exact .inl ⟨.inr hregistered, hothers⟩
        | cons head before =>
          obtain ⟨rfl, rfl⟩ := List.cons.inj heq
          exact .inr ⟨before, exchange, after, rfl, hregistered, hothers⟩

/-! ## Announcements -/

/-- What is sent for the identifier of the change that a request makes is its text. -/
theorem id?_of_change {request : Request} {change : Change}
    (h : (apply policy store request).change = some change) :
    request.id? = some (.string change.id.toText) := by
  have hnamed := named?_of_change h
  rw [Request.named?_eq] at hnamed
  cases hid : Field.id request.id? with
  | error rejection => simp [hid, Except.toOption] at hnamed
  | ok id =>
    have hsame : id = change.id := by simpa [hid, Except.toOption] using hnamed
    rw [← hsame]
    exact Field.id_eq_ok_iff.mp hid

/-- A notice tells what was sent for the identifier by the request that caused it. -/
theorem idText?_of_mem_notices {call : Call} {notice : Notice}
    (h : notice ∈ (directory.exchange call).notices) :
    ∃ sent, (Request.parse directory.lenient call.2).id? = some (.string sent) ∧
      notice.idText? = some sent := by
  simp only [exchange, published] at h
  split at h
  case isFalse => exact absurd h List.not_mem_nil
  obtain ⟨change, hchange, rfl⟩ := List.mem_map.mp h
  exact ⟨_, id?_of_change (Option.mem_toList.mp hchange), change.idText?_notice call.1⟩

/-- Where notices are on, a registration is told by one notice, under the text that it sent. -/
theorem notices_of_registers {call : Call}
    (h : (directory.exchange call).Registers directory.lenient sent)
    (hfeed : directory.feed.isSome = true) :
    ∃ notice, (directory.exchange call).notices = [notice] ∧ notice.idText? = some sent := by
  obtain ⟨hok, draft, hparse, hid⟩ := h
  have hparse : Request.parse directory.lenient call.2 = .register draft := hparse
  have hremains : (directory.exchange call).Remains directory.lenient := by
    have hlisting : (Request.parse directory.lenient call.2).isListing = false := by rw [hparse]; rfl
    exact ⟨congrArg Response.success hok, hlisting⟩
  obtain ⟨change, hnotices⟩ := published_of_remains hremains
  rw [if_pos hfeed] at hnotices
  have hone : (directory.exchange call).notices = [change.notice call.1] := hnotices
  obtain ⟨named, hnamed, htext⟩ := idText?_of_mem_notices (hone ▸ List.mem_singleton_self _)
  rw [hparse, Request.id?, hid, Option.some.injEq, Json.string.injEq] at hnamed
  exact ⟨_, hone, hnamed ▸ htext⟩

end Directory

/-- **Identifiers stay as they are sent.**  The text of every identifier is accepted for it; whatever is
accepted is a string, and the text of what it is accepted for, so that no two texts name one entry.  A text
whose bytes have the shape is never refused by the reader that comes after this check, and no other text is
accepted.  A notice tells the text that the request sent, and in whatever state a directory is, a
registration is told by one notice if notices are on.  The listing shows a text exactly where it was
registered, or there from the start, and since then not taken out. -/
theorem ids_as_sent :
    (∀ id : Uuid, Field.id (some (.string id.toText)) = .ok id) ∧
    (∀ field id, Field.id field = .ok id → field = some (.string id.toText)) ∧
    (∀ text other id, Field.id (some (.string text)) = .ok id →
      Field.id (some (.string other)) = .ok id → text = other) ∧
    (∀ text : String,
      (Uuid.Shape (Utf8.encode text.toList) → ∃ id, Uuid.readAnyForm? text.toList = some id ∧
        Field.id (some (.string text)) = .ok id) ∧
      (¬ Uuid.Shape (Utf8.encode text.toList) → Field.id (some (.string text)) = .error .id)) ∧
    (∀ (directory : Directory) (call : Call),
      (∀ notice ∈ (directory.exchange call).notices, ∃ sent,
        (Request.parse directory.lenient call.2).id? = some (.string sent) ∧
          notice.idText? = some sent) ∧
      ∀ sent, (directory.exchange call).Registers directory.lenient sent →
        directory.feed.isSome = true →
          ∃ notice, (directory.exchange call).notices = [notice] ∧ notice.idText? = some sent) ∧
    ∀ (directory : Directory) (calls : List Call) (session : SessionId) (sent : String),
      sent ∈ (directory.afterCalls calls).listedIds session ↔
        (sent ∈ directory.listedIds session ∧
            ∀ exchange ∈ directory.transcript calls, ¬ exchange.Removes directory.lenient sent) ∨
          ∃ before exchange after, directory.transcript calls = before ++ exchange :: after ∧
            exchange.Registers directory.lenient sent ∧
            ∀ later ∈ after, ¬ later.Removes directory.lenient sent := by
  refine ⟨Field.id_toText, fun field id => Field.id_eq_ok_iff.mp, fun text other id h h' => ?_,
    Field.id_in_steps, fun directory call => ⟨fun notice => Directory.idText?_of_mem_notices,
      fun sent => Directory.notices_of_registers⟩, fun directory calls session sent => ?_⟩
  · rw [Field.id_eq_ok_iff, ← Field.id_eq_ok_iff.mp h'] at h
    exact Json.string.inj (Option.some.inj h)
  · rw [Directory.mem_listedIds, Directory.mem_listedIds]
    exact directory.mem_idTexts_afterCalls calls sent

/-- A text of 36 bytes with one character of two bytes in the place of two digits. -/
example : Field.id (some (.string "123e4567-e89b-12d3-a456-4266141740é")) = .error .id := by
  decide +kernel

end ServiceDirectory

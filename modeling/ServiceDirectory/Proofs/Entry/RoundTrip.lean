import ServiceDirectory.Entry.Reader
import ServiceDirectory.Proofs.Directory.Replay

/-!
# Entries survive being sent

The text of a listing is read back as the entries that were listed, each by the reader of stored entries,
whatever characters their names and topics are made of (`entries_survive`).  So the text tells the entries:
no other list has the same.

A stored entry is read member by member.  What one member adds to the fields is a relation (`Entry.Adds`),
which the reader follows member by member (`Entry.Gathers.readMembers_joined`); it does not matter in which
order they come.  What is left is that the members of an entry add up to it, and for a list that its texts
have commas between them, as those of any list.
-/

namespace ServiceDirectory

open Json (Begins expectColon followers joined nextItem_close nextItem_first nextItem_follower
  readString_writeString skipBlanks_cons writeMember writeString)

namespace Entry

/-! ## One field -/

theorem readText_writeString (text : String) (rest : List Char) :
    readText (writeString text ++ rest) = .ok (text, rest) := by
  have hread := readString_writeString text rest
  simp [readText, writeString, skipBlanks_cons (c := '"') rfl, hread]

variable {α : Type}

theorem readAs_writeString {ofText? : String → Option α} {text : String} {a : α}
    (h : ofText? text = some a) (rest : List Char) :
    readAs ofText? (writeString text ++ rest) = .ok (a, rest) := by
  simp [readAs, readText_writeString, h, bind, Except.bind]

theorem readKind_writeString (kind : EndpointKind) (rest : List Char) :
    readKind (writeString kind.name ++ rest) = .ok (kind, rest) := by
  have hread := readAs_writeString (EndpointKind.ofName?_name kind) rest
  rw [readKind, writeString, List.cons_append, List.cons_append, skipBlanks_cons rfl]
  simpa [writeString] using hread

theorem readField_writeString {read : List Char → Except Json.Fault (α × List Char)} {text : String}
    {a : α} {rest : List Char} (h : read (writeString text ++ rest) = .ok (a, rest)) :
    readField none read (':' :: (writeString text ++ rest)) = .ok (some a, rest) := by
  simp [readField, expectColon, skipBlanks_cons (c := ':') rfl, h, bind, Except.bind]

/-! ## Members -/

/-- A member of a name and a text adds to the fields: the field of this name was not there before. -/
inductive Adds (fields : Fields) : String → String → Fields → Prop
  | id {text : String} {id : Uuid} (isNew : fields.id = none)
    (read : Uuid.readAnyForm? text.toList = some id) : Adds fields "id" text { fields with id }
  | name {text : String} (isNew : fields.name = none) :
    Adds fields "name" text { fields with name := text }
  | topic {text : String} (isNew : fields.topic = none) :
    Adds fields "topic" text { fields with topic := text }
  | kind (kind : EndpointKind) (isNew : fields.kind = none) :
    Adds fields "type" kind.name { fields with kind }
  | address {text : String} {address : Address} (isNew : fields.address = none)
    (read : Address.read? text.toList = some address) :
    Adds fields "address" text { fields with address }

variable {fields next last : Fields} {name text : String}

/-- **One member** is read as what it adds. -/
theorem Adds.readMember (h : Adds fields name text next) (rest : List Char) :
    readMember fields (writeMember (name, .string text) ++ rest) = .ok (next, rest) := by
  generalize hvalue : writeString text = value
  have hname := readString_writeString name (':' :: (value ++ rest))
  have hwrite : writeMember (name, .string text) ++ rest =
      '"' :: (name.toList.flatMap Json.writeChar ++ '"' :: ':' :: (value ++ rest)) := by
    simp [writeMember, writeString, ← hvalue, Json.write]
  rw [hwrite]
  simp only [Entry.readMember, if_true, hname, bind, Except.bind]
  subst hvalue
  cases h with
  | @id text id isNew read =>
    have hread : readId (writeString text ++ rest) = .ok (id, rest) := readAs_writeString read rest
    simp [isNew, readField_writeString hread]
  | name isNew => simp [isNew, readField_writeString (readText_writeString text rest)]
  | topic isNew => simp [isNew, readField_writeString (readText_writeString text rest)]
  | kind kind isNew => simp [isNew, readField_writeString (readKind_writeString kind rest)]
  | @address text address isNew read =>
    have hread : readAddress (writeString text ++ rest) = .ok (address, rest) :=
      readAs_writeString read rest
    simp [isNew, readField_writeString hread]

/-- Members of these names and texts add up to the last fields. -/
inductive Gathers : Fields → List (String × String) → Fields → Prop
  | nil (fields : Fields) : Gathers fields [] fields
  | cons {fields next last : Fields} {name text : String} {texts : List (String × String)}
    (first : Adds fields name text next) (others : Gathers next texts last) :
    Gathers fields ((name, text) :: texts) last

/-- The members of an object of texts, as they are written. -/
def writeTexts (texts : List (String × String)) : List (List Char) :=
  texts.map fun member => writeMember (member.1, .string member.2)

variable {members : List (String × String)}

theorem isBlank_brace : Json.isBlank '\x7d' = false := rfl

theorem begins_writeMember (member : String × Json) : Begins '\x7d' (writeMember member) :=
  Json.begins_writeString _ (by decide) member.1 _

/-- The members behind the first, as long as the clock has more characters than there are members. -/
theorem Gathers.readMembers_followers (h : Gathers fields members last) {clock : List Char}
    (hclock : members.length < clock.length) (rest : List Char) :
    readMembers clock false fields (followers '\x7d' (writeTexts members) ++ rest) = .ok (last, rest) := by
  induction h generalizing clock with
  | nil fields =>
    obtain ⟨tick, clock, rfl⟩ := List.exists_cons_of_length_pos (by omega : 0 < clock.length)
    simp [readMembers, writeTexts, followers, nextItem_close isBlank_brace]
  | @cons fields next last name text members first others ih =>
    obtain ⟨tick, clock, rfl⟩ := List.exists_cons_of_length_pos (by omega : 0 < clock.length)
    have hnext := nextItem_follower (by decide) (begins_writeMember (name, .string text))
      (followers '\x7d' (writeTexts members) ++ rest)
    rw [writeTexts, List.map_cons, followers, List.append_assoc, readMembers, ← writeTexts, hnext]
    simp only [first.readMember]
    exact ih (by simpa using hclock)

/-- **All members** are read as what they add up to. -/
theorem Gathers.readMembers_joined (h : Gathers fields members last) {clock : List Char}
    (hclock : members.length < clock.length) (rest : List Char) :
    readMembers clock true fields (joined '\x7d' (writeTexts members) ++ rest) = .ok (last, rest) := by
  obtain ⟨tick, clock, rfl⟩ := List.exists_cons_of_length_pos (by omega : 0 < clock.length)
  cases h with
  | nil => simp [readMembers, writeTexts, joined, nextItem_close isBlank_brace]
  | @cons _ next _ name text members first others =>
    have hnext := nextItem_first (begins_writeMember (name, .string text))
      (followers '\x7d' (writeTexts members) ++ rest)
    rw [writeTexts, List.map_cons, Json.joined_cons, List.append_assoc, readMembers, ← writeTexts, hnext]
    simp only [first.readMember]
    exact others.readMembers_followers (by simpa using hclock) rest

theorem length_lt_joined (members : List (String × String)) :
    members.length < (joined '\x7d' (writeTexts members)).length := by
  cases members with
  | nil => exact Nat.one_pos
  | cons member members =>
    have hfollowers := Json.length_lt_followers '\x7d' (writeTexts members)
    obtain ⟨c, tail, htext, -⟩ := begins_writeMember (member.1, .string member.2)
    rw [writeTexts, List.length_map, ← writeTexts] at hfollowers
    rw [writeTexts, List.map_cons, Json.joined_cons, htext, List.length_append, ← writeTexts]
    simp only [List.length_cons]
    omega

/-! ## Entries -/

/-- An object whose members add up to an entry is read as the entry. -/
theorem read_object {entry : Entry} (h : Gathers {} members last) (hentry : last.entry? = some entry)
    (rest : List Char) :
    read ('\x7b' :: joined '\x7d' (writeTexts members) ++ rest) = .ok (entry, rest) := by
  have hclock : members.length < (joined '\x7d' (writeTexts members) ++ rest).length := by
    have hshort := length_lt_joined members
    rw [List.length_append]
    omega
  have hmembers := h.readMembers_joined hclock rest
  rw [read, List.cons_append, skipBlanks_cons rfl]
  simp [hmembers, hentry, bind, Except.bind]

/-- The names and texts of the members that an entry is written as. -/
def texts (entry : Entry) : List (String × String) :=
  [("id", entry.id.toText), ("name", entry.name), ("topic", entry.topic), ("type", entry.kind.name),
    ("address", entry.address.toText)]

theorem write_toJson (entry : Entry) :
    Json.write entry.toJson = '\x7b' :: joined '\x7d' (writeTexts entry.texts) := by
  rw [toJson, Json.write, Json.writeMembers_eq]
  rfl

variable {entry : Entry}

/-- The members of an entry add up to its fields. -/
theorem gathers_texts (h : entry.address.Readable) :
    Gathers {} entry.texts
      { id := entry.id, name := entry.name, topic := entry.topic, kind := entry.kind,
        address := entry.address } := by
  have hid : Uuid.readAnyForm? entry.id.toText.toList = some entry.id := by
    rw [Uuid.toText, String.toList_ofList, Uuid.readAnyForm?_write]
  have haddress : Address.read? entry.address.toText.toList = some entry.address := by
    obtain ⟨text, htext⟩ := h
    rw [Address.toText, String.toList_ofList, Address.read?_write htext]
  exact .cons (.id rfl hid) <| .cons (.name rfl) <| .cons (.topic rfl) <| .cons (.kind entry.kind rfl) <|
    .cons (.address rfl haddress) <| .nil _

/-- **An entry is read back** from the text it is written as, and what follows the text is left over. -/
theorem read_write (h : entry.address.Readable) (rest : List Char) :
    read (Json.write entry.toJson ++ rest) = .ok (entry, rest) := by
  rw [write_toJson]
  exact read_object (gathers_texts h) rfl rest

/-- An entry is the entry of the text that it is written as. -/
theorem parse_render (h : entry.address.Readable) : parse entry.toJson.render = .ok entry := by
  have hread := read_write h []
  rw [List.append_nil] at hread
  simp [parse, Json.render, hread, Json.skipBlanks, bind, Except.bind]

end Entry

/-! ## Listings -/

namespace Response

variable {entries : List Entry}

/-- What stands before the entries in the text of a listing. -/
def listingHead : String := "\x7b\"success\":true,\"message\":\"OK\",\"list\":["

theorem toList_render_listing (entries : List Entry) :
    (listing entries).render.toList =
      listingHead.toList ++ (joined ']' (entries.map fun entry => Json.write entry.toJson) ++ ['\x7d']) := by
  have hitems : Json.writeItems (entries.map Entry.toJson) =
      joined ']' (entries.map fun entry => Json.write entry.toJson) := by
    rw [Json.writeItems_eq, List.map_map]
    rfl
  rw [render, Json.render, String.toList_ofList]
  simp only [toJson, listing, ok, Json.write, Json.writeMembers, hitems]
  simp [listingHead, writeString, Json.writeChar]

/-- **The entries are read back** from where they stand in the text of a listing. -/
theorem readSequence_entries (h : ∀ entry ∈ entries, entry.address.Readable) (rest : List Char) :
    Json.readSequence ']' Entry.read
        (joined ']' (entries.map fun entry => Json.write entry.toJson) ++ rest) = .ok (entries, rest) :=
  Json.readSequence_joined rfl (by decide)
    (fun entry _ => Json.begins_write (entry.plain_toJson 0))
    (fun entry he rest => Entry.read_write (h entry he) rest) rest

/-- Responses of the same text are the same value. -/
theorem toJson_eq_of_render_eq {response other : Response} (h : response.render = other.render) :
    response.toJson = other.toJson := by
  have hparse := parse?_render response
  rw [h, parse?_render other] at hparse
  exact (Option.some.inj hparse).symm

/-- A listing is never told as an error. -/
theorem render_listing_ne_failure (entries : List Entry) (message : String) :
    (listing entries).render ≠ (failure message).render := by
  intro h
  have hsame := toJson_eq_of_render_eq h
  simp [toJson, listing, failure, ok] at hsame

theorem mapM_parse_items (h : ∀ entry ∈ entries, entry.address.Readable) :
    (entries.map Entry.toJson).mapM (fun item => Entry.parse item.render) = .ok entries := by
  induction entries with
  | nil => rfl
  | cons entry entries ih =>
    rw [List.forall_mem_cons] at h
    rw [List.map_cons, List.mapM_cons, Entry.parse_render h.1, ih h.2]
    rfl

end Response

/-- **Entries survive being sent.**  The text of a listing is JSON, an object of the three members and no
others, and never that of an error.  Each element of its list is read back as the entry that it stands for,
alone or where it stands in the text; an entry by itself is read back as well, and is then written as before.
So entries that are not the same have different texts.  All of this holds for any texts as names and topics,
and for every address that can be read from some text. -/
theorem entries_survive :
    (∀ entries : List Entry, (∀ entry ∈ entries, entry.address.Readable) →
      let text := (Response.listing entries).render
      (∃ items, Json.parse? text = some (.object [("success", .bool true), ("message", .string "OK"),
          ("list", .array items)]) ∧
        items.mapM (fun item => Entry.parse item.render) = .ok entries) ∧
      (∃ rest, text.toList = Response.listingHead.toList ++ rest ∧
        Json.readSequence ']' Entry.read rest = .ok (entries, ['\x7d'])) ∧
      text ≠ "\x7b\"success\":false,\"message\":\"Internal error\"\x7d") ∧
    (∀ entry : Entry, entry.address.Readable →
      let text := entry.toJson.render
      Entry.parse text = .ok entry ∧ ∀ back, Entry.parse text = .ok back → back.toJson.render = text) ∧
    ∀ entries others : List Entry, (∀ entry ∈ entries, entry.address.Readable) →
      (∀ entry ∈ others, entry.address.Readable) →
      (Response.listing entries).render = (Response.listing others).render → entries = others := by
  have hfailure : (Response.failure "Internal error").render =
      "\x7b\"success\":false,\"message\":\"Internal error\"\x7d" := by
    decide +kernel
  refine ⟨fun entries h => ⟨⟨_, Response.parse?_render _, Response.mapM_parse_items h⟩,
    ⟨_, Response.toList_render_listing entries, Response.readSequence_entries h _⟩, ?_⟩,
    fun entry h => ⟨Entry.parse_render h, fun back hback => ?_⟩, fun entries others h h' heq => ?_⟩
  · rw [← hfailure]
    exact Response.render_listing_ne_failure entries _
  · rw [Entry.parse_render h] at hback
    rw [Except.ok.inj hback]
  · have hread := Response.readSequence_entries h ['\x7d']
    have hlist := congrArg String.toList heq
    rw [Response.toList_render_listing, Response.toList_render_listing] at hlist
    rw [List.append_cancel_left hlist, Response.readSequence_entries h'] at hread
    exact (congrArg Prod.fst (Except.ok.inj hread)).symm

/-- A name with a quote, a backslash, a line break, another control character and a character that takes two
words of 16 bits. -/
theorem entries_survive_with_escapes :
    let entry : Entry :=
      { id := ⟨1⟩, name := "\"a\\\n\x01𝄞", topic := "clock/é", kind := .streamer
        address := { scheme := some "tcp", host := "::1", port := 80 } }
    let text := (Response.listing [entry, entry]).render
    (∀ listed ∈ [entry, entry], listed.address.Readable) ∧
      (∃ items, Json.parse? text = some (.object [("success", .bool true), ("message", .string "OK"),
          ("list", .array items)]) ∧
        items.mapM (fun item => Entry.parse item.render) = .ok [entry, entry]) ∧
      Entry.parse entry.toJson.render = .ok entry := by
  intro entry text
  have hreadable : entry.address.Readable := ⟨"TCP://[::1]:080".toList, by decide +kernel⟩
  have hall : ∀ listed ∈ [entry, entry], listed.address.Readable := by
    intro listed hl
    have hlisted : listed = entry := by simpa using hl
    exact hlisted ▸ hreadable
  obtain ⟨hlistings, hentries, -⟩ := entries_survive
  exact ⟨hall, (hlistings [entry, entry] hall).1, (hentries entry hreadable).1⟩

end ServiceDirectory

import ServiceDirectory.Entry.Draft
import ServiceDirectory.Proofs.Results
import ServiceDirectory.Proofs.Text.Ascii
import ServiceDirectory.Proofs.Uuid

/-!
# Which drafts become entries

What a client sends for an entry is any value of JSON, or nothing.  Each field asks something of what is sent
under its name (`Draft.Meets`), and only this decides: a draft becomes an entry when all five fields are
met, and otherwise the first of `Draft.checkOrder` that is not met is reported (`Draft.validate_in_order`).

What is asked is said of the value that is sent, not of the checks.  Each check settles its field
(`Settles`), and the checks one after the other settle the draft.  Lengths are counted in characters; for a
topic it makes no difference to count bytes (`Draft.topicForm_iff_topicBytes`).
-/

namespace ServiceDirectory

theorem Field.text?_eq_some_iff {field : Option Json} {text : String} :
    text? field = some text ↔ field = some (.string text) := by
  rcases field with _ | (_ | _ | _ | _ | _ | _) <;> simp [text?, Json.string?]

namespace Draft

/-! ## What is sent -/

/-- The members of what is given for an entry; what is no object has none. -/
def members : Option Json → List (String × Json)
  | some (.object members) => members
  | _ => []

/-- A value is sent under a name: of the members that go by the name, the last has the value. -/
def Sends (given : Option Json) (name : String) (value : Json) : Prop :=
  ∃ before after, members given = before ++ (name, value) :: after ∧ ∀ other ∈ after, other.1 ≠ name

/-- A value is sent for the address: as `address`, or as `addr` where there is no `address` of any value. -/
def SendsAddress (given : Option Json) (value : Json) : Prop :=
  Sends given "address" value ∨
    (∀ other, ¬ Sends given "address" other) ∧ Sends given "addr" value

variable {given other : Option Json} {policy : Policy}

theorem lastMember?_members {name : String} {value : Json} :
    Json.lastMember? name (members given) = some value ↔ Sends given name value := by
  rw [Json.lastMember?, List.lookup_eq_some_iff, Sends]
  constructor
  · rintro ⟨after, before, hmembers, hafter⟩
    refine ⟨before.reverse, after.reverse, ?_, fun other ho => ?_⟩
    · rw [← List.reverse_reverse (members given), hmembers]
      simp
    · exact (bne_iff_ne.mp (hafter other (List.mem_reverse.mp ho))).symm
  · rintro ⟨before, after, hmembers, hafter⟩
    refine ⟨after.reverse, before.reverse, ?_, fun other ho => ?_⟩
    · rw [hmembers]
      simp
    · exact bne_iff_ne.mpr (hafter other (List.mem_reverse.mp ho)).symm

/-- Where the last members of a name are the same, the same is sent under it. -/
theorem sends_congr {name : String}
    (h : Json.lastMember? name (members given) = Json.lastMember? name (members other)) (value : Json) :
    Sends given name value ↔ Sends other name value := by
  rw [← lastMember?_members, ← lastMember?_members, h]

theorem addressMember?_members {value : Json} :
    addressMember? (members given) = some value ↔ SendsAddress given value := by
  have hnone : Json.lastMember? "address" (members given) = none ↔
      ∀ other, ¬ Sends given "address" other := by
    simp only [Option.eq_none_iff_forall_ne_some, ← lastMember?_members, ne_eq]
  rw [addressMember?, Option.or_eq_some_iff, hnone, lastMember?_members, lastMember?_members,
    SendsAddress]

/-! ## What is asked -/

/-- A topic: a letter from a to z, then such letters, points, underscores and hyphens, 2 to 256 characters
in all. -/
structure TopicForm (text : List Char) : Prop where
  length : 2 ≤ text.length ∧ text.length ≤ 256
  chars : ∃ first rest, text = first :: rest ∧ ('a' ≤ first ∧ first ≤ 'z') ∧
    ∀ c ∈ rest, ('a' ≤ c ∧ c ≤ 'z') ∨ c = '.' ∨ c = '_' ∨ c = '-'

/-- The fields in the order of their checks; a field goes by the rejection that names it. -/
def checkOrder : List Rejection := [.id, .topic, .kind, .address, .name]

/-- The fields that are checked before a field. -/
def earlier (field : Rejection) : List Rejection := checkOrder.takeWhile (· ≠ field)

/-- The names of the members that a field may be sent in. -/
def memberNames : Rejection → List String
  | .id => ["id"]
  | .topic => ["topic"]
  | .kind => ["type"]
  | .address => ["address", "addr"]
  | .name => ["name"]

/-- A value is sent for a field. -/
def SendsFor (given : Option Json) : Rejection → Json → Prop
  | .id => Sends given "id"
  | .topic => Sends given "topic"
  | .kind => Sends given "type"
  | .address => SendsAddress given
  | .name => Sends given "name"

/-- A text is one that a field may have. -/
def Suits (policy : Policy) (text : String) : Rejection → Prop
  | .id => Uuid.Form text.toList
  | .topic => TopicForm text.toList ∧ text ∉ policy.reservedTopics
  | .kind => text ∈ ["datahub", "messagehub", "service", "streamer"]
  | .address => ∃ address, Address.read? text.toList = some address
  | .name => 1 ≤ text.toList.length ∧ text.toList.length ≤ 256

/-- What is sent for a field is a string, and one that the field may have. -/
def Meets (policy : Policy) (given : Option Json) (field : Rejection) : Prop :=
  ∃ text, SendsFor given field (.string text) ∧ Suits policy text field

/-- An entry holds what was sent: the texts as they are, and the address that is read. -/
structure Carries (given : Option Json) (entry : Entry) : Prop where
  id : SendsFor given .id (.string entry.id.toText)
  topic : SendsFor given .topic (.string entry.topic)
  kind : SendsFor given .kind (.string entry.kind.name)
  address : ∃ text, SendsFor given .address (.string text) ∧
    Address.read? text.toList = some entry.address
  name : SendsFor given .name (.string entry.name)

/-! ## Topics byte by byte -/

/-- The bytes of a topic. -/
structure TopicBytes (bytes : Bytes) : Prop where
  length : 2 ≤ bytes.length ∧ bytes.length ≤ 256
  bytes : ∃ first rest, bytes = first :: rest ∧ (97 ≤ first.toNat ∧ first.toNat ≤ 122) ∧
    ∀ b ∈ rest, (97 ≤ b.toNat ∧ b.toNat ≤ 122) ∨ b = 46 ∨ b = 95 ∨ b = 45

theorem topicForm_iff_of_ascii {text : List Char} (h : ∀ c ∈ text, c.toNat < 128) :
    TopicForm text ↔ TopicBytes (Utf8.encode text) := by
  have hfirst : ∀ c : Char, c.toNat < 128 → (('a' ≤ c ∧ c ≤ 'z') ↔
      97 ≤ (UInt8.ofNat c.toNat).toNat ∧ (UInt8.ofNat c.toNat).toNat ≤ 122) := by
    intro c hc
    rw [UInt8.toNat_ofNat', Nat.mod_eq_of_lt (by omega)]
    exact Iff.rfl
  have hother : ∀ c : Char, c.toNat < 128 → ((c = '.' ∨ c = '_' ∨ c = '-') ↔
      UInt8.ofNat c.toNat = 46 ∨ UInt8.ofNat c.toNat = 95 ∨ UInt8.ofNat c.toNat = 45) := by
    refine Text.of_forall_lt ?_
    decide
  rw [Utf8.encode_of_ascii h]
  cases text with
  | nil => exact ⟨fun h => absurd h.length.1 (by decide), fun h => absurd h.length.1 (by decide)⟩
  | cons first rest =>
    rw [List.forall_mem_cons] at h
    constructor
    · rintro ⟨hlength, first', rest', heq, hfirst', hrest⟩
      obtain ⟨rfl, rfl⟩ := List.cons.inj heq
      refine ⟨by simpa using hlength, _, _, List.map_cons, (hfirst first h.1).mp hfirst', fun b hb => ?_⟩
      obtain ⟨c, hc, rfl⟩ := List.mem_map.mp hb
      rw [← hfirst c (h.2 c hc), ← hother c (h.2 c hc)]
      exact hrest c hc
    · rintro ⟨hlength, first', rest', heq, hfirst', hrest⟩
      obtain ⟨rfl, rfl⟩ := List.cons.inj heq
      refine ⟨by simpa using hlength, _, _, rfl, (hfirst first h.1).mpr hfirst', fun c hc => ?_⟩
      rw [hfirst c (h.2 c hc), hother c (h.2 c hc)]
      exact hrest _ (List.mem_map_of_mem hc)

/-- A topic can be checked by its characters or by its bytes: there are as many of these, as each character
that is let through takes one byte. -/
theorem topicForm_iff_topicBytes {text : List Char} : TopicForm text ↔ TopicBytes (Utf8.encode text) := by
  constructor
  · intro h
    refine (topicForm_iff_of_ascii fun c hc => ?_).mp h
    obtain ⟨-, first, rest, rfl, hfirst, hrest⟩ := h
    have hlast : ∀ {c : Char}, c ≤ 'z' → c.toNat < 128 := fun hle => Nat.lt_of_le_of_lt hle (by decide)
    rcases List.mem_cons.mp hc with rfl | hc
    · exact hlast hfirst.2
    · rcases hrest c hc with hletter | rfl | rfl | rfl
      · exact hlast hletter.2
      all_goals decide
  · intro h
    refine (topicForm_iff_of_ascii (Utf8.ascii_of_encode fun b hb => ?_)).mpr h
    obtain ⟨-, first, rest, heq, hfirst, hrest⟩ := h
    rw [heq] at hb
    rcases List.mem_cons.mp hb with rfl | hb
    · omega
    · rcases hrest b hb with hb | rfl | rfl | rfl
      · omega
      all_goals decide

/-! ## The checks -/

/-- What a draft holds for a field. -/
def sent? (draft : Draft) : Rejection → Option Json
  | .id => draft.id
  | .topic => draft.topic
  | .kind => draft.kind
  | .address => draft.address
  | .name => draft.name

theorem sent?_ofJson {field : Rejection} {value : Json} :
    (ofJson given).sent? field = some value ↔ SendsFor given field value := by
  -- only the members count
  have hmembers : ofJson given = ofJson (some (.object (members given))) := by
    rcases given with _ | (_ | _ | _ | _ | _ | _) <;> rfl
  rw [hmembers]
  cases field with
  | address => exact addressMember?_members
  | id | topic | kind | name => exact lastMember?_members

/-- A check that reads the text of its field, and is right about every text, settles the field. -/
theorem settles_of_read {α : Type} {good : String → α → Prop} (field : Rejection)
    (check : Option Json → Except Rejection α) (read : String → Option α)
    (hcheck : ∀ sent, check sent = ((Field.text? sent).bind read).elim (.error field) .ok)
    (hread : ∀ text a, read text = some a ↔ good text a)
    (hsuits : ∀ text, Suits policy text field ↔ ∃ a, good text a) :
    Settles (check ((ofJson given).sent? field))
      (fun a => ∃ text, SendsFor given field (.string text) ∧ good text a)
      (fun e => e = field ∧ ¬ Meets policy given field) := by
  have hreading : ∀ a, (Field.text? ((ofJson given).sent? field)).bind read = some a ↔
      ∃ text, SendsFor given field (.string text) ∧ good text a := by
    intro a
    simp only [Option.bind_eq_some_iff, Field.text?_eq_some_iff, sent?_ofJson, hread]
  have hmeets : Meets policy given field ↔
      ∃ a, (Field.text? ((ofJson given).sent? field)).bind read = some a := by
    simp only [Meets, hreading, hsuits]
    constructor
    · rintro ⟨text, hsent, a, hgood⟩
      exact ⟨a, text, hsent, hgood⟩
    · rintro ⟨a, text, hsent, hgood⟩
      exact ⟨text, hsent, a, hgood⟩
  rw [hcheck, hmeets]
  simp only [← hreading]
  cases (Field.text? ((ofJson given).sent? field)).bind read <;> constructor <;> simp [eq_comm]

/-- A check that keeps the text of its field as it is, where it is acceptable. -/
theorem settles_of_keep (field : Rejection) (check : Option Json → Except Rejection String)
    (keep : String → Prop) [DecidablePred keep]
    (hcheck : ∀ sent, check sent = match Field.text? sent with
      | some text => if keep text then .ok text else .error field
      | none => .error field)
    (hsuits : ∀ text, Suits policy text field ↔ keep text) :
    Settles (check ((ofJson given).sent? field))
      (fun a => ∃ text, SendsFor given field (.string text) ∧ Suits policy text field ∧ text = a)
      (fun e => e = field ∧ ¬ Meets policy given field) := by
  refine settles_of_read field check (fun text => if keep text then some text else none) (fun sent => ?_)
    (fun text a => ?_) fun text => ?_
  · rw [hcheck]
    cases Field.text? sent with
    | none => rfl
    | some text =>
      rw [Option.bind_some]
      dsimp only
      split <;> rfl
  · simp [hsuits]
  · simp

theorem settles_id (policy : Policy) (given : Option Json) :
    Settles (Field.id (ofJson given).id)
      (fun id => ∃ text, SendsFor given .id (.string text) ∧ id.toText = text)
      (fun e => e = .id ∧ ¬ Meets policy given .id) := by
  have hwrite : ∀ (id : Uuid) (text : String), id.toText = text ↔ id.write = text.toList := by
    intro id text
    rw [← String.toList_inj, Uuid.toText, String.toList_ofList]
  refine settles_of_read .id Field.id (fun text => Uuid.read? text.toList) (fun sent => ?_)
    (fun text id => ?_) fun text => ?_
  · rw [Field.id]
    cases (Field.text? sent).bind _ <;> rfl
  · rw [Uuid.read?_eq_some_iff, hwrite]
  · simp only [Suits, Uuid.form_iff, hwrite]

theorem isTopic_iff {text : List Char} : Field.IsTopic text ↔ TopicForm text := by
  have hletter : ∀ c : Char, c.isLower = true ↔ 'a' ≤ c ∧ c ≤ 'z' := fun _ => Text.isLower_iff
  constructor
  · rintro ⟨hshort, hlong, ⟨first, hfirst, hlower⟩, hrest⟩
    refine ⟨⟨hshort, hlong⟩, ?_⟩
    obtain ⟨rest, rfl⟩ := List.head?_eq_some_iff.mp hfirst
    refine ⟨first, rest, rfl, (hletter first).mp hlower, fun c hc => ?_⟩
    simpa only [hletter] using hrest c hc
  · rintro ⟨⟨hshort, hlong⟩, first, rest, rfl, hfirst, hrest⟩
    refine ⟨hshort, hlong, ⟨first, rfl, (hletter first).mpr hfirst⟩, fun c hc => ?_⟩
    simpa only [hletter] using hrest c hc

theorem settles_topic (policy : Policy) (given : Option Json) :
    Settles (Field.topic policy (ofJson given).topic)
      (fun topic => ∃ text, SendsFor given .topic (.string text) ∧ Suits policy text .topic ∧
        text = topic)
      (fun e => e = .topic ∧ ¬ Meets policy given .topic) := by
  refine settles_of_keep .topic (Field.topic policy) _ (fun _ => rfl) fun text => ?_
  rw [isTopic_iff]
  rfl

theorem settles_kind (policy : Policy) (given : Option Json) :
    Settles (Field.kind (ofJson given).kind)
      (fun kind => ∃ text, SendsFor given .kind (.string text) ∧ kind.name = text)
      (fun e => e = .kind ∧ ¬ Meets policy given .kind) := by
  refine settles_of_read .kind Field.kind EndpointKind.ofName? (fun sent => ?_) (fun text kind => ?_)
    fun text => ?_
  · rw [Field.kind]
    cases (Field.text? sent).bind _ <;> rfl
  · constructor
    · exact EndpointKind.name_of_ofName?
    · rintro rfl
      exact EndpointKind.ofName?_name kind
  · constructor
    · intro hname
      simp only [Suits, List.mem_cons, List.not_mem_nil, or_false] at hname
      rcases hname with rfl | rfl | rfl | rfl
      · exact ⟨.datahub, rfl⟩
      · exact ⟨.messagehub, rfl⟩
      · exact ⟨.service, rfl⟩
      · exact ⟨.streamer, rfl⟩
    · rintro ⟨kind, rfl⟩
      cases kind <;> simp [Suits, EndpointKind.name]

theorem settles_address (policy : Policy) (given : Option Json) :
    Settles (Field.address (ofJson given).address)
      (fun address => ∃ text, SendsFor given .address (.string text) ∧
        Address.read? text.toList = some address)
      (fun e => e = .address ∧ ¬ Meets policy given .address) := by
  refine settles_of_read .address Field.address (fun text => Address.read? text.toList) (fun sent => ?_)
    (fun _ _ => Iff.rfl) fun _ => Iff.rfl
  rw [Field.address]
  cases (Field.text? sent).bind _ <;> rfl

theorem settles_name (policy : Policy) (given : Option Json) :
    Settles (Field.name (ofJson given).name)
      (fun name => ∃ text, SendsFor given .name (.string text) ∧ Suits policy text .name ∧ text = name)
      (fun e => e = .name ∧ ¬ Meets policy given .name) := by
  refine settles_of_keep .name Field.name _ (fun _ => rfl) fun text => ?_
  rw [Field.IsName, ← List.length_pos_iff]
  rfl

/-! ## All checks -/

/-- A draft fails by a field: those before it are met, and it is not. -/
def FailsBy (policy : Policy) (given : Option Json) (field : Rejection) : Prop :=
  (∀ before ∈ earlier field, Meets policy given before) ∧ ¬ Meets policy given field

/-- The checks one after the other. -/
theorem settles_validate (policy : Policy) (given : Option Json) :
    Settles ((ofJson given).validate policy)
      (fun entry => Carries given entry ∧ Suits policy entry.topic .topic ∧ Suits policy entry.name .name)
      (FailsBy policy given) := by
  have hchecks := (settles_id policy given).andThen fun id => (settles_topic policy given).andThen
    fun topic => (settles_kind policy given).andThen fun kind => (settles_address policy given).andThen
    fun address => (settles_name policy given).andThen fun name =>
    Settles.done { id, name, topic, kind, address : Entry }
  constructor
  · intro entry
    refine (hchecks.ok_iff entry).trans ⟨?_, ?_⟩
    · rintro ⟨id, ⟨_, hid, rfl⟩, topic, ⟨_, htopic, htopic', rfl⟩, kind, ⟨_, hkind, rfl⟩,
        address, haddress, name, ⟨_, hname, hname', rfl⟩, rfl⟩
      exact ⟨⟨hid, htopic, hkind, haddress, hname⟩, htopic', hname'⟩
    · rintro ⟨h, htopic, hname⟩
      exact ⟨_, ⟨_, h.id, rfl⟩, _, ⟨_, h.topic, htopic, rfl⟩, _, ⟨_, h.kind, rfl⟩, _, h.address, _,
        ⟨_, h.name, hname, rfl⟩, rfl⟩
  · intro cause
    refine (hchecks.error_iff cause).trans ?_
    cases cause <;> simp [FailsBy, earlier, checkOrder, and_assoc]

/-- Unless a draft fails by some field, all fields are met. -/
theorem meets_of_not_failsBy (h : ∀ field, ¬ FailsBy policy given field) (field : Rejection) :
    Meets policy given field := by
  have hnext : ∀ field, (∀ before ∈ earlier field, Meets policy given before) →
      Meets policy given field := by
    intro field hbefore
    by_contra hunmet
    exact h field ⟨hbefore, hunmet⟩
  have hid := hnext .id (by simp [earlier, checkOrder])
  have htopic := hnext .topic (by simp [earlier, checkOrder, hid])
  have hkind := hnext .kind (by simp [earlier, checkOrder, hid, htopic])
  have haddress := hnext .address (by simp [earlier, checkOrder, hid, htopic, hkind])
  have hname := hnext .name (by simp [earlier, checkOrder, hid, htopic, hkind, haddress])
  cases field with
  | id => exact hid
  | topic => exact htopic
  | kind => exact hkind
  | address => exact haddress
  | name => exact hname

/-- The same is sent for a field, under each of its names. -/
theorem sendsFor_congr {field : Rejection} (h : ∀ name ∈ memberNames field, ∀ value,
    Sends given name value ↔ Sends other name value) (value : Json) :
    SendsFor given field value ↔ SendsFor other field value := by
  cases field with
  | address =>
    simp only [SendsFor, SendsAddress, h "address" (by simp [memberNames]),
      h "addr" (by simp [memberNames])]
  | id | topic | kind | name => exact h _ (by simp [memberNames]) value

theorem meets_congr {field : Rejection} (h : ∀ name ∈ memberNames field, ∀ value,
    Sends given name value ↔ Sends other name value) :
    Meets policy given field ↔ Meets policy other field := by
  simp only [Meets, sendsFor_congr h]

/-- **Drafts are checked in order.**  A draft becomes an entry exactly when what is sent for each field is
acceptable, and the entry carries what was sent; otherwise the first field that is not acceptable is
reported, and so it is whatever is sent for the fields after it.  What is no object counts as an empty
one. -/
theorem validate_in_order (policy : Policy) :
    (∀ given, (∃ entry, (ofJson given).validate policy = .ok entry) ↔
        ∀ field, Meets policy given field) ∧
      (∀ given field, (ofJson given).validate policy = .error field ↔
        (∀ before ∈ earlier field, Meets policy given before) ∧ ¬ Meets policy given field) ∧
      (∀ given entry, (ofJson given).validate policy = .ok entry → Carries given entry) ∧
      (∀ given other field, (ofJson given).validate policy = .error field →
        (∀ checked ∈ earlier field ++ [field], ∀ name ∈ memberNames checked, ∀ value,
          Sends given name value ↔ Sends other name value) →
        (ofJson other).validate policy = .error field) ∧
      ∀ given, (∀ members, given ≠ some (.object members)) →
        (ofJson given).validate policy = (ofJson (some (.object []))).validate policy := by
  refine ⟨fun given => ⟨?_, fun h => ?_⟩, fun given => (settles_validate policy given).error_iff,
    fun given entry h => (((settles_validate policy given).ok_iff entry).mp h).1,
    fun given other field h hsame => ?_, fun given hobject => ?_⟩
  · rintro ⟨entry, h⟩
    refine meets_of_not_failsBy fun field hfails => ?_
    rw [← (settles_validate policy given).error_iff, h] at hfails
    cases hfails
  · cases hv : (ofJson given).validate policy with
    | ok entry => exact ⟨entry, rfl⟩
    | error field => exact absurd (h field) (((settles_validate policy given).error_iff field).mp hv).2
  · rw [(settles_validate policy _).error_iff] at h ⊢
    refine ⟨fun before hb => ?_, ?_⟩
    · rw [← meets_congr (hsame before (List.mem_append_left _ hb))]
      exact h.1 before hb
    · rw [← meets_congr (hsame field (by simp))]
      exact h.2
  · rcases given with _ | (_ | _ | _ | _ | _ | members)
    case some.object => exact absurd rfl (hobject members)
    all_goals rfl

/-- An address of null hides the one under the other name, and is reported before the missing name. -/
example :
    (ofJson (some (.object [("id", .string "123e4567-e89b-12d3-a456-426614174000"),
      ("topic", .string "camera"), ("type", .string "service"), ("address", .null),
      ("addr", .string "camera.local:80")]))).validate {} = .error .address := by
  rfl

end Draft

end ServiceDirectory

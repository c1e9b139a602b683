import ServiceDirectory.Proofs.Base64
import ServiceDirectory.Proofs.Upgrade.Answer
import ServiceDirectory.Proofs.Upgrade.Reading

/-!
# Which upgrade requests are accepted

The requirements on a request are those of `Meets`; `Lacks` tells the first that is not met, in the order in
which they are asked for.  A request head is accepted when it is within the limit, is a text that reads as a
head, and meets them (`Accepts`); otherwise the first of these that fails is the cause of the refusal
(`Refuses`).

Where the bytes received hold CR LF CR LF, the handshake accepts and refuses exactly so
(`Handshake.process_of_terminator`).  Each description excludes every other, so it is enough to show that
one of them always holds (`lacks_or_meets`, `refuses_or_accepts`) and that the outcome is the one described.
-/

namespace ServiceDirectory.Upgrade

open RequestHead (IsNamed)
open Text (EqIgnoringCase IsSplit IsTrimmed)

variable {head : RequestHead} {name token key value : String} {cause : Refusal}

/-! ## Headers -/

/-- A header of a name lists a token: this is one of the pieces between the commas of its value, in whatever
case and without the blanks around it. -/
def HeaderLists (head : RequestHead) (name token : String) : Prop :=
  ∃ header ∈ head.headers, IsNamed name header ∧
    ∃ pieces, IsSplit [','] header.2.toList pieces ∧
      ∃ piece ∈ pieces, ∃ trimmed, IsTrimmed piece trimmed ∧ EqIgnoringCase trimmed token.toList

theorem listsToken_iff : head.ListsToken name token ↔ HeaderLists head name token := by
  constructor
  · rintro ⟨header, hheader, hnamed, found, hfound, heq⟩
    obtain ⟨piece, hpiece, rfl⟩ := List.mem_map.mp hfound
    exact ⟨header, hheader, hnamed, _, Text.splitOn_eq_iff.mp rfl, piece, hpiece, _,
      Text.trim_eq_iff.mp rfl, heq⟩
  · rintro ⟨header, hheader, hnamed, pieces, hsplit, piece, hpiece, trimmed, htrimmed, heq⟩
    refine ⟨header, hheader, hnamed, trimmed, List.mem_map.mpr ⟨piece, ?_, htrimmed.trim_eq⟩, heq⟩
    rwa [Text.splitOn_eq_iff.mpr hsplit]

/-- The value of the first header of a name. -/
def FirstValue (head : RequestHead) (name value : String) : Prop :=
  ∃ before header after, head.headers = before ++ header :: after ∧
    (∀ other ∈ before, ¬ IsNamed name other) ∧ IsNamed name header ∧ header.2 = value

theorem header?_eq_some_iff : head.header? name = some value ↔ FirstValue head name value := by
  simp only [RequestHead.header?, Option.map_eq_some_iff, List.find?_eq_some_iff_append,
    decide_eq_true_eq, Bool.not_eq_true', decide_eq_false_iff_not]
  constructor
  · rintro ⟨header, ⟨hnamed, before, after, hheaders, hbefore⟩, hvalue⟩
    exact ⟨before, header, after, hheaders, hbefore, hnamed, hvalue⟩
  · rintro ⟨before, header, after, hheaders, hbefore, hnamed, hvalue⟩
    exact ⟨header, ⟨hnamed, before, after, hheaders, hbefore⟩, hvalue⟩

/-- No header goes by a name. -/
def HasNone (head : RequestHead) (name : String) : Prop :=
  ∀ header ∈ head.headers, ¬ IsNamed name header

theorem header?_eq_none_iff : head.header? name = none ↔ HasNone head name := by
  simp only [RequestHead.header?, Option.map_eq_none_iff, List.find?_eq_none, decide_eq_true_eq, HasNone]

/-! ## Requirements -/

/-- The request is to switch protocols. -/
structure Asks (head : RequestHead) : Prop where
  method : head.method = "GET"
  version : head.version = "HTTP/1.1"
  upgrade : HeaderLists head "Upgrade" "websocket"
  connection : HeaderLists head "Connection" "upgrade"

/-- A key: 16 bytes in base 64. -/
def Is16Bytes (key : String) : Prop :=
  ∃ nonce : Bytes, nonce.length = 16 ∧ key.toList = Base64.encode nonce

/-- The key of a request. -/
structure HasKey (head : RequestHead) (key : String) : Prop where
  first : FirstValue head "Sec-WebSocket-Key" key
  nonce : Is16Bytes key

/-- A request with a key meets all requirements. -/
structure Meets (head : RequestHead) (key : String) : Prop where
  asks : Asks head
  hasKey : HasKey head key
  version : FirstValue head "Sec-WebSocket-Version" "13"

/-- The first requirement that a request does not meet. -/
inductive Lacks (head : RequestHead) : Refusal → Prop where
  | method (other : head.method ≠ "GET") : Lacks head (.method head.method)
  | httpVersion (method : head.method = "GET") (other : head.version ≠ "HTTP/1.1") :
      Lacks head (.httpVersion head.version)
  | upgradeHeader (method : head.method = "GET") (version : head.version = "HTTP/1.1")
      (without : ¬ HeaderLists head "Upgrade" "websocket") : Lacks head .upgradeHeader
  | connectionHeader (method : head.method = "GET") (version : head.version = "HTTP/1.1")
      (upgrade : HeaderLists head "Upgrade" "websocket")
      (without : ¬ HeaderLists head "Connection" "upgrade") : Lacks head .connectionHeader
  | missingKey (asks : Asks head) (without : HasNone head "Sec-WebSocket-Key") : Lacks head .missingKey
  | invalidKey {key : String} (asks : Asks head) (first : FirstValue head "Sec-WebSocket-Key" key)
      (other : ¬ Is16Bytes key) : Lacks head .invalidKey
  | missingVersion {key : String} (asks : Asks head) (hasKey : HasKey head key)
      (without : HasNone head "Sec-WebSocket-Version") : Lacks head .missingVersion
  | unsupportedVersion {key version : String} (asks : Asks head) (hasKey : HasKey head key)
      (first : FirstValue head "Sec-WebSocket-Version" version) (other : version ≠ "13") :
      Lacks head (.unsupportedVersion version)

theorem isKey_iff : IsKey key ↔ Is16Bytes key := by
  constructor
  · rintro ⟨nonce, hnonce, hlength⟩
    exact ⟨nonce, hlength, Base64.decode?_eq_some_iff.mp hnonce⟩
  · rintro ⟨nonce, hlength, hkey⟩
    exact ⟨nonce, Base64.decode?_eq_some_iff.mpr hkey, hlength⟩

/-- Tokens are compared without regard to case. -/
theorem headerLists_connection :
    head.ListsToken "Connection" "Upgrade" ↔ HeaderLists head "Connection" "upgrade" := by
  have hcase : EqIgnoringCase "Upgrade".toList "upgrade".toList := by decide
  rw [listsToken_iff]
  constructor
  · rintro ⟨header, hheader, hnamed, pieces, hsplit, piece, hpiece, trimmed, htrimmed, heq⟩
    exact ⟨header, hheader, hnamed, pieces, hsplit, piece, hpiece, trimmed, htrimmed, heq.trans hcase⟩
  · rintro ⟨header, hheader, hnamed, pieces, hsplit, piece, hpiece, trimmed, htrimmed, heq⟩
    exact ⟨header, hheader, hnamed, pieces, hsplit, piece, hpiece, trimmed, htrimmed,
      heq.trans hcase.symm⟩

/-- What is left to judge of a request to switch protocols. -/
theorem accept_of_asks (h : Asks head) :
    accept head = match head.header? "Sec-WebSocket-Key" with
      | none => .error .missingKey
      | some key =>
        if ¬ IsKey key then .error .invalidKey
        else match head.header? "Sec-WebSocket-Version" with
          | none => .error .missingVersion
          | some version =>
            if version ≠ "13" then .error (.unsupportedVersion version)
            else .ok (acceptValue key) := by
  refine (if_neg (not_not.mpr h.method)).trans ?_
  refine (if_neg (not_not.mpr h.version)).trans ?_
  refine (if_neg (not_not.mpr (listsToken_iff.mpr h.upgrade))).trans ?_
  exact if_neg (not_not.mpr (headerLists_connection.mpr h.connection))

/-- What is left to judge of a request with a key. -/
theorem accept_of_hasKey (h : Asks head) (hkey : HasKey head key) :
    accept head = match head.header? "Sec-WebSocket-Version" with
      | none => .error .missingVersion
      | some version =>
        if version ≠ "13" then .error (.unsupportedVersion version) else .ok (acceptValue key) := by
  have hvalid := isKey_iff.mpr hkey.nonce
  simp only [accept_of_asks h, header?_eq_some_iff.mpr hkey.first, hvalid, not_true, if_false]

theorem accept_of_meets (h : Meets head key) : accept head = .ok (acceptValue key) := by
  simp only [accept_of_hasKey h.asks h.hasKey, header?_eq_some_iff.mpr h.version, ne_eq, not_true,
    if_false]

theorem accept_of_lacks (h : Lacks head cause) : accept head = .error cause := by
  cases h with
  | method other => rw [accept, if_pos other]
  | httpVersion method other => rw [accept, if_neg (not_not.mpr method), if_pos other]
  | upgradeHeader method version without =>
    rw [accept, if_neg (not_not.mpr method), if_neg (not_not.mpr version),
      if_pos (listsToken_iff.not.mpr without)]
  | connectionHeader method version upgrade without =>
    rw [accept, if_neg (not_not.mpr method), if_neg (not_not.mpr version),
      if_neg (not_not.mpr (listsToken_iff.mpr upgrade)),
      if_pos (headerLists_connection.not.mpr without)]
  | missingKey asks without =>
    simp only [accept_of_asks asks, header?_eq_none_iff.mpr without]
  | invalidKey asks first other =>
    have hinvalid := isKey_iff.not.mpr other
    simp only [accept_of_asks asks, header?_eq_some_iff.mpr first, hinvalid, not_false_eq_true, if_true]
  | missingVersion asks hasKey without =>
    simp only [accept_of_hasKey asks hasKey, header?_eq_none_iff.mpr without]
  | unsupportedVersion asks hasKey first other =>
    simp only [accept_of_hasKey asks hasKey, header?_eq_some_iff.mpr first, if_pos other]

/-- A request meets all requirements, or there is a first one that it does not meet. -/
theorem lacks_or_meets (head : RequestHead) : (∃ cause, Lacks head cause) ∨ ∃ key, Meets head key := by
  by_cases hmethod : head.method = "GET"
  case neg => exact .inl ⟨_, .method hmethod⟩
  by_cases hversion : head.version = "HTTP/1.1"
  case neg => exact .inl ⟨_, .httpVersion hmethod hversion⟩
  by_cases hupgrade : HeaderLists head "Upgrade" "websocket"
  case neg => exact .inl ⟨_, .upgradeHeader hmethod hversion hupgrade⟩
  by_cases hconnection : HeaderLists head "Connection" "upgrade"
  case neg => exact .inl ⟨_, .connectionHeader hmethod hversion hupgrade hconnection⟩
  have hasks : Asks head := ⟨hmethod, hversion, hupgrade, hconnection⟩
  cases hfirst : head.header? "Sec-WebSocket-Key" with
  | none => exact .inl ⟨_, .missingKey hasks (header?_eq_none_iff.mp hfirst)⟩
  | some key =>
    have hfirst := header?_eq_some_iff.mp hfirst
    by_cases hnonce : Is16Bytes key
    case neg => exact .inl ⟨_, .invalidKey hasks hfirst hnonce⟩
    have hkey : HasKey head key := ⟨hfirst, hnonce⟩
    cases hsupported : head.header? "Sec-WebSocket-Version" with
    | none => exact .inl ⟨_, .missingVersion hasks hkey (header?_eq_none_iff.mp hsupported)⟩
    | some version =>
      have hsupported := header?_eq_some_iff.mp hsupported
      by_cases hthirteen : version = "13"
      · exact .inr ⟨key, hasks, hkey, hthirteen ▸ hsupported⟩
      · exact .inl ⟨_, .unsupportedVersion hasks hkey hsupported hthirteen⟩

/-! ## Heads -/

/-- A request head is accepted with a value: it is within the limit, is a text that reads as a head, and
meets the requirements with a key.  The value is the hash of this key and a fixed text, in base 64. -/
structure Accepts (limit : Nat) (head : Bytes) (value : String) : Prop where
  within : head.length ≤ limit
  meets : ∃ text request key, head = Utf8.encode text ∧ Reads text request ∧ Meets request key ∧
    value.toList = Base64.encode
      (Sha1.hash (Utf8.encode (key.toList ++ "258EAFA5-E914-47DA-95CA-C5AB0DC85B11".toList)))

/-- A request head is refused, and why: the first condition that it does not satisfy. -/
inductive Refuses (limit : Nat) (head : Bytes) : Refusal → Prop where
  | headTooLarge (tooLong : limit < head.length) : Refuses limit head (.headTooLarge limit)
  | notUtf8 (within : head.length ≤ limit) (other : ∀ text, head ≠ Utf8.encode text) :
      Refuses limit head (.malformed .notUtf8)
  | malformed {text : List Char} {fault : HeadFault} (within : head.length ≤ limit)
      (text_eq : head = Utf8.encode text) (faulty : Faulty text fault) :
      Refuses limit head (.malformed fault)
  | lacks {text : List Char} {request : RequestHead} {cause : Refusal} (within : head.length ≤ limit)
      (text_eq : head = Utf8.encode text) (reads : Reads text request) (lacks : Lacks request cause) :
      Refuses limit head cause

/-- What comes of a head that is complete. -/
def verdict (limit : Nat) (head : Bytes) : Outcome :=
  if limit < head.length then .refused (.headTooLarge limit) else .ofHead head

theorem ofBytes_encode (text : List Char) :
    RequestHead.ofBytes (Utf8.encode text) = RequestHead.ofText text := by
  simp only [RequestHead.ofBytes, Utf8.decode?_encode]

theorem toList_acceptValue (key : String) :
    (acceptValue key).toList = Base64.encode
      (Sha1.hash (Utf8.encode (key.toList ++ "258EAFA5-E914-47DA-95CA-C5AB0DC85B11".toList))) :=
  String.toList_ofList

variable {limit : Nat} {bytes : Bytes}

theorem verdict_of_accepts (h : Accepts limit bytes value) : verdict limit bytes = .accepted value := by
  obtain ⟨hwithin, text, request, key, rfl, hreads, hmeets, hvalue⟩ := h
  have hread := ((settles_ofText text).ok_iff request).mpr hreads
  have haccept : acceptValue key = value :=
    String.toList_inj.mp ((toList_acceptValue key).trans hvalue.symm)
  rw [verdict, if_neg (Nat.not_lt.mpr hwithin)]
  simp only [Outcome.ofHead, ofBytes_encode, hread, accept_of_meets hmeets, haccept]

theorem verdict_of_refuses (h : Refuses limit bytes cause) : verdict limit bytes = .refused cause := by
  cases h with
  | headTooLarge tooLong => exact if_pos tooLong
  | notUtf8 within other =>
    have hnone : Utf8.decode? bytes = none := by
      by_contra hsome
      obtain ⟨text, htext⟩ := Option.ne_none_iff_exists'.mp hsome
      exact other text (Utf8.decode?_eq_some_iff.mp htext)
    rw [verdict, if_neg (Nat.not_lt.mpr within)]
    simp only [Outcome.ofHead, RequestHead.ofBytes, hnone]
  | @malformed text fault within text_eq faulty =>
    have hread := ((settles_ofText text).error_iff fault).mpr faulty
    rw [verdict, if_neg (Nat.not_lt.mpr within), text_eq]
    simp only [Outcome.ofHead, ofBytes_encode, hread]
  | @lacks text request _ within text_eq reads lacks =>
    have hread := ((settles_ofText text).ok_iff request).mpr reads
    rw [verdict, if_neg (Nat.not_lt.mpr within), text_eq]
    simp only [Outcome.ofHead, ofBytes_encode, hread, accept_of_lacks lacks]

/-- Every head is accepted with some value or refused for some cause. -/
theorem refuses_or_accepts (limit : Nat) (bytes : Bytes) :
    (∃ cause, Refuses limit bytes cause) ∨ ∃ value, Accepts limit bytes value := by
  by_cases hwithin : bytes.length ≤ limit
  case neg => exact .inl ⟨_, .headTooLarge (Nat.lt_of_not_le hwithin)⟩
  by_cases htext : ∃ text, bytes = Utf8.encode text
  case neg => exact .inl ⟨_, .notUtf8 hwithin fun text heq => htext ⟨text, heq⟩⟩
  obtain ⟨text, htext⟩ := htext
  cases hread : RequestHead.ofText text with
  | error fault =>
    exact .inl ⟨_, .malformed hwithin htext (((settles_ofText text).error_iff fault).mp hread)⟩
  | ok request =>
    have hreads := ((settles_ofText text).ok_iff request).mp hread
    rcases lacks_or_meets request with ⟨cause, hlacks⟩ | ⟨key, hmeets⟩
    · exact .inl ⟨cause, .lacks hwithin htext hreads hlacks⟩
    · exact .inr ⟨_, hwithin, text, request, key, htext, hreads, hmeets, toList_acceptValue key⟩

theorem verdict_eq_accepted_iff : verdict limit bytes = .accepted value ↔ Accepts limit bytes value := by
  refine ⟨fun h => ?_, verdict_of_accepts⟩
  rcases refuses_or_accepts limit bytes with ⟨cause, hrefuses⟩ | ⟨other, haccepts⟩
  · exact nomatch h.symm.trans (verdict_of_refuses hrefuses)
  · obtain rfl := Outcome.accepted.inj (h.symm.trans (verdict_of_accepts haccepts))
    exact haccepts

theorem verdict_eq_refused_iff : verdict limit bytes = .refused cause ↔ Refuses limit bytes cause := by
  refine ⟨fun h => ?_, verdict_of_refuses⟩
  rcases refuses_or_accepts limit bytes with ⟨other, hrefuses⟩ | ⟨value, haccepts⟩
  · obtain rfl := Outcome.refused.inj (h.symm.trans (verdict_of_refuses hrefuses))
    exact hrefuses
  · exact nomatch h.symm.trans (verdict_of_accepts haccepts)

/-! ## Handshakes -/

/-- A request head: CR LF CR LF stands at its end and nowhere else. -/
structure IsHead (head : Bytes) : Prop where
  ends : ∃ front, head = front ++ terminator
  once : ∀ before after, head = before ++ terminator ++ after → after = []

theorem isHead_terminator : IsHead terminator where
  ends := ⟨[], rfl⟩
  once := by
    intro before after h
    have hlength := congrArg List.length h
    simp only [List.length_append] at hlength
    exact List.eq_nil_of_length_eq_zero (by omega)

theorem IsHead.cons {b : UInt8} (h : IsHead bytes) (hb : ¬ terminator <+: b :: bytes) :
    IsHead (b :: bytes) where
  ends := by
    obtain ⟨front, rfl⟩ := h.ends
    exact ⟨b :: front, rfl⟩
  once := by
    intro before after heq
    cases before with
    | nil => exact (hb ⟨after, heq.symm⟩).elim
    | cons d before =>
      obtain ⟨-, heq⟩ := List.cons.inj heq
      exact h.once before after heq

/-- What is found to be the first head is one. -/
theorem isHead_of_headLengthFrom {before length : Nat} {received : Bytes}
    (h : headLengthFrom before received = some length) :
    ∃ head rest, received = head ++ rest ∧ IsHead head ∧ length = before + head.length := by
  induction received generalizing before with
  | nil => cases h
  | cons b received ih =>
    rw [headLengthFrom] at h
    split at h
    next hfront =>
      obtain ⟨rest, hrest⟩ := List.isPrefixOf_iff_prefix.mp hfront
      obtain rfl := Option.some.inj h
      exact ⟨terminator, rest, hrest.symm, isHead_terminator, rfl⟩
    next hfront =>
      obtain ⟨head, rest, rfl, hhead, rfl⟩ := ih h
      refine ⟨b :: head, rest, rfl, hhead.cons fun hstarts => hfront ?_, ?_⟩
      · rw [List.isPrefixOf_iff_prefix]
        exact hstarts.trans (List.prefix_append (b :: head) rest)
      · rw [List.length_cons]
        omega

/-- **Which upgrade requests are accepted, and why the others are refused.**  The head of the bytes received
is judged, and taken unless it is too long. -/
theorem Handshake.process_of_terminator (limit : Nat) {received : Bytes}
    (h : terminator <:+: received) :
    ∃ head rest, received = head ++ rest ∧ IsHead head ∧
      ∃ outcome, Handshake.process { limit } received =
          (some outcome, Handshake.finish { limit } outcome,
            if limit < head.length then received else rest) ∧
        (∀ value, outcome = .accepted value ↔ Accepts limit head value) ∧
        ∀ cause, outcome = .refused cause ↔ Refuses limit head cause := by
  obtain ⟨before, after, rfl⟩ := h
  obtain ⟨length, hlength, -⟩ := headLength?_le before after
  obtain ⟨head, rest, hreceived, hhead, hlength_eq⟩ := isHead_of_headLengthFrom hlength
  rw [Nat.zero_add] at hlength_eq
  subst hlength_eq
  refine ⟨head, rest, hreceived, hhead, verdict limit head, ?_, fun _ => verdict_eq_accepted_iff,
    fun _ => verdict_eq_refused_iff⟩
  rw [hreceived] at hlength ⊢
  have hfresh : ¬ (Handshake.isDone { limit }) = true := by simp [Handshake.isDone]
  unfold Handshake.process
  rw [if_neg hfresh]
  simp only [Handshake.outcome?, hlength, verdict]
  by_cases hover : limit < head.length
  · simp only [if_pos hover]
  · simp only [if_neg hover, List.take_left, List.drop_left]

/-- A request with the key of the protocol's own example, its tokens in other cases and in a list, and a byte
behind it. -/
def sampleRequest : Bytes :=
  Utf8.encode ("GET / HTTP/1.1\r\nupgrade: h2c, WebSocket\r\nConnection: UPGRADE\r\n" ++
    "Sec-WebSocket-Key: dGhlIHNhbXBsZSBub25jZQ==\r\nSec-WebSocket-Version: 13").toList ++
      terminator ++ [0x89]

/-- It is accepted with the value that the protocol gives. -/
theorem Handshake.process_sampleRequest :
    terminator <:+: sampleRequest ∧
      ∃ head rest, sampleRequest = head ++ rest ∧ IsHead head ∧
        Accepts 8192 head "s3pPLMBiTxaQ9kYGzzhZRbK+xOo=" := by
  have hstands : terminator <:+: sampleRequest := ⟨_, _, rfl⟩
  have hprocess : (Handshake.process { limit := 8192 } sampleRequest).1 =
      some (.accepted "s3pPLMBiTxaQ9kYGzzhZRbK+xOo=") := by
    decide +kernel
  obtain ⟨head, rest, hreceived, hhead, outcome, heq, haccepts, -⟩ :=
    Handshake.process_of_terminator 8192 hstands
  have houtcome := (congrArg Prod.fst heq).symm.trans hprocess
  exact ⟨hstands, head, rest, hreceived, hhead, (haccepts _).mp (Option.some.inj houtcome)⟩

end ServiceDirectory.Upgrade

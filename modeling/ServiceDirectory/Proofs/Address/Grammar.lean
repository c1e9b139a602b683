import ServiceDirectory.Address
import ServiceDirectory.Proofs.Net.Literals
import ServiceDirectory.Proofs.Text.Ascii
import ServiceDirectory.Proofs.Text.Pieces

/-!
# How addresses are written

A spelling (`Address.Spelling`) is an address part by part, as it is written: an optional scheme, a host and
the digits of a port.  The rules for the parts are those of `SchemeForm`, `Host.IsValid` and `PortForm`.

The reader accepts the texts that have a valid spelling, and gives the address that it spells; no text has
two (`Address.read?_eq_some_iff_spelling`).  The reader finds the parts by cuts at the first `://`, the first
closing bracket and the last colon.  These are the right cuts because no scheme holds a colon, no host a
slash, no IPv6 address a bracket and no port a colon.
-/

namespace ServiceDirectory.Address

open Text (IsSplit)

/-! ## The grammar -/

/-- A scheme: a letter, then letters, digits, `+`, `-` and `.`. -/
def SchemeForm (text : List Char) : Prop :=
  ∃ first rest, text = first :: rest ∧ first.isAlpha = true ∧
    ∀ c ∈ rest, c.isAlpha = true ∨ c.isDigit = true ∨ c = '+' ∨ c = '-' ∨ c = '.'

/-- A label: 1 to 63 letters, digits and hyphens, of which the first and the last are no hyphens. -/
structure LabelForm (text : List Char) : Prop where
  length : 1 ≤ text.length ∧ text.length ≤ 63
  chars : ∀ c ∈ text, c.isAlpha = true ∨ c.isDigit = true ∨ c = '-'
  first : ¬ ∃ rest, text = '-' :: rest
  last : ¬ ∃ front, text = front ++ ['-']

/-- A name: labels with points between them, 1 to 253 bytes in all, and not only digits and points. -/
structure NameForm (text : List Char) : Prop where
  size : 1 ≤ (Utf8.encode text).length ∧ (Utf8.encode text).length ≤ 253
  word : ∃ c ∈ text, c.isDigit = false ∧ c ≠ '.'
  labels : ∃ labels, IsSplit ['.'] text labels ∧ ∀ label ∈ labels, LabelForm label

/-- A host. -/
inductive Host where
  | ipv6 (text : List Char)
  | ipv4 (text : List Char)
  | name (text : List Char)

/-- The text of a host. -/
def Host.text : Host → List Char
  | ipv6 text | ipv4 text | name text => text

/-- A host as it stands in an address: an IPv6 address is in brackets. -/
def Host.written : Host → List Char
  | ipv6 text => '[' :: text ++ [']']
  | ipv4 text | name text => text

/-- A host is what it says it is. -/
def Host.IsValid : Host → Prop
  | ipv6 text => ∃ address, Net.IPv6.read? text = some address
  | ipv4 text => ∃ address, Net.IPv4.read? text = some address
  | name text => NameForm text

/-- A port: digits, of any number, with a value from 1 to 65535. -/
structure PortForm (digits : List Char) : Prop where
  nonempty : digits ≠ []
  decimal : ∀ c ∈ digits, c.isDigit = true
  range : 1 ≤ Nat.ofDigitChars 10 digits 0 ∧ Nat.ofDigitChars 10 digits 0 ≤ 65535

/-- An address part by part, as it is written. -/
@[ext]
structure Spelling where
  scheme : Option (List Char)
  host : Host
  port : List Char

/-- What stands before the host. -/
def schemeFront : Option (List Char) → List Char
  | some scheme => scheme ++ [':', '/', '/']
  | none => []

namespace Spelling

/-- The host and the port. -/
def authority (s : Spelling) : List Char := s.host.written ++ ':' :: s.port

/-- The text that the parts make up. -/
def written (s : Spelling) : List Char := schemeFront s.scheme ++ s.authority

/-- The parts keep to the rules. -/
structure IsValid (s : Spelling) : Prop where
  scheme : ∀ scheme ∈ s.scheme, SchemeForm scheme
  host : s.host.IsValid
  port : PortForm s.port

/-- The address that is spelled: its scheme is in lower case, its host without brackets, and its port the
number that the digits say. -/
def address (s : Spelling) : Address where
  scheme := s.scheme.map fun scheme => String.ofList (scheme.map Char.toLower)
  host := String.ofList s.host.text
  port := UInt16.ofNat (Nat.ofDigitChars 10 s.port 0)

end Spelling

variable {text rest digits : List Char} {c : Char}

/-! ## Schemes -/

theorem isScheme_iff : IsScheme text ↔ SchemeForm text := by
  cases text with
  | nil => simp [IsScheme, SchemeForm]
  | cons first rest => simp [IsScheme, SchemeForm, Char.isAlphanum, or_assoc]

theorem SchemeForm.not_mem_colon (h : SchemeForm text) : ':' ∉ text := by
  obtain ⟨first, rest, rfl, hfirst, hrest⟩ := h
  intro hm
  rcases List.mem_cons.mp hm with rfl | hm
  · exact absurd hfirst (by decide)
  · exact absurd (hrest _ hm) (by decide)

/-- A cut at the first `://` finds the scheme. -/
theorem cutAt_schemeFront {scheme : Option (List Char)} (h : ∀ text ∈ scheme, SchemeForm text)
    (hslash : '/' ∉ rest) :
    Text.cutAt [':', '/', '/'] (schemeFront scheme ++ rest) = scheme.map fun text => (text, rest) := by
  cases scheme with
  | none =>
    rw [schemeFront, List.nil_append, Option.map_none, Text.cutAt_eq_none_iff (by simp)]
    exact fun hoccurs => hslash (hoccurs.subset (by simp))
  | some text =>
    rw [schemeFront, List.append_assoc, Text.cutAt_append (h text rfl).not_mem_colon]
    rfl

theorem readScheme?_schemeFront {scheme : Option (List Char)} (h : ∀ text ∈ scheme, SchemeForm text)
    (hslash : '/' ∉ rest) :
    readScheme? (schemeFront scheme ++ rest) =
      some (scheme.map fun text => String.ofList (text.map Char.toLower), rest) := by
  rw [readScheme?, cutAt_schemeFront h hslash]
  cases scheme with
  | none => rfl
  | some text => exact if_pos (isScheme_iff.mpr (h text rfl))

theorem exists_of_readScheme? {lower : Option String} (h : readScheme? text = some (lower, rest)) :
    ∃ scheme : Option (List Char), (∀ text ∈ scheme, SchemeForm text) ∧
      text = schemeFront scheme ++ rest ∧
      lower = scheme.map fun text => String.ofList (text.map Char.toLower) := by
  rw [readScheme?] at h
  split at h
  · obtain ⟨rfl, rfl⟩ := Prod.mk.inj (Option.some.inj h)
    exact ⟨none, nofun, rfl, rfl⟩
  next scheme after hcut =>
    split at h
    next hscheme =>
      obtain ⟨rfl, rfl⟩ := Prod.mk.inj (Option.some.inj h)
      refine ⟨some scheme, ?_, ?_, rfl⟩
      · rintro _ ⟨⟩
        exact isScheme_iff.mp hscheme
      · rw [Text.eq_append_of_cutAt hcut, schemeFront, List.append_assoc]
    next => cases h

/-! ## Names -/

theorem isLabel_iff : IsLabel text ↔ LabelForm text := by
  have hchar : ∀ c : Char, c.isAlphanum = true ∨ c = '-' ↔
      c.isAlpha = true ∨ c.isDigit = true ∨ c = '-' := by
    simp [Char.isAlphanum, or_assoc]
  simp only [IsLabel, hchar, ne_eq, List.head?_eq_some_iff, List.getLast?_eq_some_iff]
  constructor
  · rintro ⟨hne, hlength, hfirst, hlast, hchars⟩
    exact ⟨⟨List.length_pos_iff.mpr hne, hlength⟩, hchars, hfirst, hlast⟩
  · rintro ⟨⟨hpos, hlength⟩, hchars, hfirst, hlast⟩
    exact ⟨List.length_pos_iff.mp hpos, hlength, hfirst, hlast, hchars⟩

theorem LabelForm.char (h : LabelForm text) (hc : c ∈ text) : c.isAlphanum = true ∨ c = '-' := by
  simpa [Char.isAlphanum, or_assoc] using h.chars c hc

/-- What the pieces of a text between points are made of is what the text is made of. -/
theorem char_of_labels {labels : List (List Char)} (hsplit : IsSplit ['.'] text labels)
    (hlabels : ∀ label ∈ labels, LabelForm label) (hc : c ∈ text) :
    c.isAlphanum = true ∨ c = '-' ∨ c = '.' := by
  by_cases hpoint : c = '.'
  · exact .inr (.inr hpoint)
  · obtain ⟨label, hl, hm⟩ := Text.exists_mem_splitOn hc hpoint
    rw [Text.splitOn_eq_iff.mpr hsplit] at hl
    exact ((hlabels label hl).char hm).imp_right .inl

theorem NameForm.char (h : NameForm text) (hc : c ∈ text) : c.isAlphanum = true ∨ c = '-' ∨ c = '.' := by
  obtain ⟨labels, hsplit, hlabels⟩ := h.labels
  exact char_of_labels hsplit hlabels hc

theorem ascii_of_nameChar (h : c.isAlphanum = true ∨ c = '-' ∨ c = '.') : c.toNat < 128 := by
  rcases h with h | rfl | rfl
  · rw [Text.isAlphanum_iff, Text.isAlpha_iff, Text.isUpper_iff, Text.isLower_iff,
      Char.isDigit_iff_toNat] at h
    have h9 : '9'.toNat = 57 := rfl
    omega
  all_goals decide

/-- The characters of a name take a byte each. -/
theorem length_encode_of_nameChar (h : ∀ c ∈ text, c.isAlphanum = true ∨ c = '-' ∨ c = '.') :
    (Utf8.encode text).length = text.length := by
  rw [Utf8.encode_of_ascii fun c hc => ascii_of_nameChar (h c hc), List.length_map]

theorem isHost_iff : IsHost text ↔ (∃ address, Net.IPv4.read? text = some address) ∨ NameForm text := by
  constructor
  · rintro ⟨hne, hlength, hv4 | ⟨hword, hlabels⟩⟩
    · exact .inl (Option.isSome_iff_exists.mp hv4)
    · have hsplit : IsSplit ['.'] text (text.splitOn '.') := Text.splitOn_eq_iff.mp rfl
      have hforms : ∀ label ∈ text.splitOn '.', LabelForm label :=
        fun label hl => isLabel_iff.mp (hlabels label hl)
      have hbytes := length_encode_of_nameChar fun c hc => char_of_labels hsplit hforms hc
      refine .inr ⟨?_, ?_, _, hsplit, hforms⟩
      · rw [hbytes]
        exact ⟨List.length_pos_iff.mpr hne, hlength⟩
      · simpa using hword
  · rintro (⟨address, hv4⟩ | hname)
    · obtain ⟨hne, hlength⟩ := Net.IPv4.length_of_read? hv4
      exact ⟨hne, by omega, .inl (Option.isSome_iff_exists.mpr ⟨address, hv4⟩)⟩
    · have hbytes := length_encode_of_nameChar fun c hc => hname.char hc
      obtain ⟨hpos, hlength⟩ := hbytes ▸ hname.size
      obtain ⟨labels, hsplit, hlabels⟩ := hname.labels
      refine ⟨List.length_pos_iff.mp hpos, hlength, .inr ⟨by simpa using hname.word, ?_⟩⟩
      rw [Text.splitOn_eq_iff.mpr hsplit]
      exact fun label hl => isLabel_iff.mpr (hlabels label hl)

/-! ## Hosts -/

/-- What a host that is not an IPv6 address is made of. -/
theorem char_of_isHost (h : IsHost text) (hc : c ∈ text) : c.isAlphanum = true ∨ c = '-' ∨ c = '.' := by
  rcases isHost_iff.mp h with ⟨address, hv4⟩ | hname
  · rcases Net.IPv4.char_of_read? hv4 c hc with hdigit | hpoint
    · exact .inl (by simp [Char.isAlphanum, hdigit])
    · exact .inr (.inr hpoint)
  · exact hname.char hc

theorem Host.IsValid.isHost_or_ipv6 {host : Host} (h : host.IsValid) :
    IsHost host.text ∨ ∃ address, Net.IPv6.read? host.text = some address := by
  cases host with
  | ipv6 text => exact .inr h
  | ipv4 text => exact .inl (isHost_iff.mpr (.inl h))
  | name text => exact .inl (isHost_iff.mpr (.inr h))

/-- No valid host holds a slash. -/
theorem Host.IsValid.not_mem_slash {host : Host} (h : host.IsValid) : '/' ∉ host.written := by
  have htext : '/' ∉ host.text := by
    intro hm
    rcases h.isHost_or_ipv6 with hhost | ⟨address, hv6⟩
    · exact absurd (char_of_isHost hhost hm) (by decide)
    · exact absurd (Net.IPv6.char_of_read? hv6 _ hm) (by decide)
  cases host <;> simpa [Host.written, Host.text] using htext

theorem readHost?_plain (h : IsHost text) (hcolon : ':' ∉ digits) :
    readHost? (text ++ ':' :: digits) = some (text, digits) := by
  have hcut : Text.cutAtLast ':' (text ++ ':' :: digits) = some (text, digits) :=
    Text.cutAtLast_eq_some_iff.mpr ⟨rfl, hcolon⟩
  rw [readHost?.eq_def]
  split
  next bracketed heq =>
    -- the host would begin with a bracket
    cases text with
    | nil => exact absurd rfl h.1
    | cons c text =>
      obtain ⟨rfl, -⟩ := List.cons.inj heq
      exact absurd (char_of_isHost h List.mem_cons_self) (by decide)
  next => simp [hcut, h]

/-- A valid host is read in front of the digits of a port. -/
theorem readHost?_written {host : Host} (h : host.IsValid) (hcolon : ':' ∉ digits) :
    readHost? (host.written ++ ':' :: digits) = some (host.text, digits) := by
  cases host with
  | ipv6 text =>
    obtain ⟨address, hv6⟩ := h
    have hbracket : ']' ∉ text := by
      intro hm
      exact absurd (Net.IPv6.char_of_read? hv6 _ hm) (by decide)
    have hcut : Text.cutAtFirst ']' (text ++ ']' :: ':' :: digits) = some (text, ':' :: digits) :=
      Text.cutAtFirst_eq_some_iff.mpr ⟨rfl, hbracket⟩
    simp [Host.written, Host.text, readHost?, hcut, hv6]
  | ipv4 text => exact readHost?_plain (isHost_iff.mpr (.inl h)) hcolon
  | name text => exact readHost?_plain (isHost_iff.mpr (.inr h)) hcolon

theorem exists_of_readHost? {found : List Char} (h : readHost? text = some (found, digits)) :
    ∃ host : Host, host.IsValid ∧ text = host.written ++ ':' :: digits ∧ found = host.text := by
  rw [readHost?.eq_def] at h
  split at h
  next bracketed =>
    simp only [Option.bind_eq_bind, Option.bind_eq_some_iff, Prod.exists] at h
    obtain ⟨inner, after, hcut, v6, hv6, hafter⟩ := h
    obtain ⟨rfl, -⟩ := Text.cutAtFirst_eq_some_iff.mp hcut
    split at hafter
    · obtain ⟨rfl, rfl⟩ := Prod.mk.inj (Option.some.inj hafter)
      exact ⟨.ipv6 inner, ⟨v6, hv6⟩, by simp [Host.written], rfl⟩
    · cases hafter
  next =>
    simp only [Option.bind_eq_bind, Option.bind_eq_some_iff, Prod.exists] at h
    obtain ⟨inner, port, hcut, hhost⟩ := h
    obtain ⟨rfl, -⟩ := Text.cutAtLast_eq_some_iff.mp hcut
    split at hhost
    next hishost =>
      obtain ⟨rfl, rfl⟩ := Prod.mk.inj (Option.some.inj hhost)
      rcases isHost_iff.mp hishost with hv4 | hname
      · exact ⟨.ipv4 inner, hv4, rfl, rfl⟩
      · exact ⟨.name inner, hname, rfl, rfl⟩
    next => cases hhost

/-- A host is told by its text and by how it is written. -/
theorem Host.IsValid.eq_of_text {host host' : Host} (h : host.IsValid) (h' : host'.IsValid)
    (htext : host.text = host'.text) (hwritten : host.written = host'.written) : host = host' := by
  -- brackets tell the IPv6 addresses from the others
  have hbrackets : ∀ text : List Char, '[' :: text ++ [']'] ≠ text := by
    intro text heq
    have hlength := congrArg List.length heq
    simp only [List.cons_append, List.length_cons, List.length_append, List.length_nil] at hlength
    omega
  -- and a name is no IPv4 address
  have hword : ∀ {text address}, Net.IPv4.read? text = some address → ¬ NameForm text := by
    intro text address hv4 hname
    obtain ⟨c, hc, hdigit, hpoint⟩ := hname.word
    rcases Net.IPv4.char_of_read? hv4 c hc with hc | hc
    · rw [hdigit] at hc
      cases hc
    · exact hpoint hc
  cases host <;> cases host' <;> obtain rfl : _ = _ := htext
  case ipv6.ipv6 | ipv4.ipv4 | name.name => rfl
  case ipv6.ipv4 | ipv6.name => exact (hbrackets _ hwritten).elim
  case ipv4.ipv6 | name.ipv6 => exact (hbrackets _ hwritten.symm).elim
  case ipv4.name => exact (hword h.choose_spec h').elim
  case name.ipv4 => exact (hword h'.choose_spec h).elim

/-! ## Ports -/

theorem port?_eq_some_iff {port : UInt16} :
    port? digits = some port ↔ PortForm digits ∧ port = UInt16.ofNat (Nat.ofDigitChars 10 digits 0) := by
  have hsize : UInt16.size = 65536 := rfl
  have hvalue := Text.valueUpTo_eq UInt16.size digits
  simp only [port?]
  split
  next h =>
    obtain ⟨hne, hdecimal, hpos, hlt⟩ := h
    have hexact : Text.valueUpTo UInt16.size digits = Nat.ofDigitChars 10 digits 0 := by omega
    rw [hexact] at hpos hlt ⊢
    have hform : PortForm digits := ⟨hne, hdecimal, hpos, by omega⟩
    exact ⟨fun h => ⟨hform, (Option.some.inj h).symm⟩, fun h => congrArg some h.2.symm⟩
  next h =>
    refine ⟨nofun, fun hform => (h ?_).elim⟩
    obtain ⟨⟨hne, hdecimal, hpos, hle⟩, -⟩ := hform
    exact ⟨hne, hdecimal, by omega, by omega⟩

theorem PortForm.not_mem (h : PortForm digits) (hc : c.isDigit = false) : c ∉ digits := by
  intro hm
  rw [h.decimal c hm] at hc
  cases hc

/-! ## Addresses -/

namespace Spelling

variable {s s' : Spelling}

theorem IsValid.not_mem_slash (h : s.IsValid) : '/' ∉ s.authority := by
  have hport : '/' ∉ s.port := h.port.not_mem (by decide)
  simpa [authority, hport] using h.host.not_mem_slash

theorem IsValid.readHost?_authority (h : s.IsValid) :
    readHost? s.authority = some (s.host.text, s.port) :=
  readHost?_written h.host (h.port.not_mem (by decide))

/-- **A valid spelling is read** as the address that it spells. -/
theorem IsValid.read?_written (h : s.IsValid) : read? s.written = some s.address := by
  have hport : port? s.port = some (UInt16.ofNat (Nat.ofDigitChars 10 s.port 0)) :=
    port?_eq_some_iff.mpr ⟨h.port, rfl⟩
  rw [read?, written, readScheme?_schemeFront h.scheme h.not_mem_slash]
  simp only [Option.bind_eq_bind, Option.bind_some, h.readHost?_authority, hport]
  rfl

/-- **Every text that is read has a valid spelling.** -/
theorem exists_of_read? {address : Address} (h : read? text = some address) :
    ∃ s : Spelling, s.IsValid ∧ s.written = text ∧ s.address = address := by
  simp only [read?, Option.bind_eq_bind, Option.bind_eq_some_iff, Prod.exists] at h
  obtain ⟨lower, rest, hreadScheme, found, digits, hreadHost, port, hreadPort, haddress⟩ := h
  obtain ⟨scheme, hscheme, rfl, rfl⟩ := exists_of_readScheme? hreadScheme
  obtain ⟨host, hhost, rfl, rfl⟩ := exists_of_readHost? hreadHost
  obtain ⟨hport, rfl⟩ := port?_eq_some_iff.mp hreadPort
  exact ⟨{ scheme, host, port := digits }, ⟨hscheme, hhost, hport⟩, rfl, Option.some.inj haddress⟩

/-- **No text has two valid spellings.** -/
theorem IsValid.eq_of_written (h : s.IsValid) (h' : s'.IsValid) (heq : s.written = s'.written) :
    s = s' := by
  have hcut := cutAt_schemeFront h.scheme h.not_mem_slash
  have hcut' := cutAt_schemeFront h'.scheme h'.not_mem_slash
  have hwritten : schemeFront s.scheme ++ s.authority = schemeFront s'.scheme ++ s'.authority := heq
  have hsame := hcut.symm.trans (hwritten ▸ hcut')
  have hparts : s.scheme = s'.scheme ∧ s.authority = s'.authority := by
    cases hs : s.scheme <;> cases hs' : s'.scheme <;> simp only [hs, hs'] at hsame hwritten
    case none.none => exact ⟨rfl, hwritten⟩
    case none.some | some.none => cases hsame
    case some.some =>
      obtain ⟨rfl, hauthority⟩ := Prod.mk.inj (Option.some.inj hsame)
      exact ⟨rfl, hauthority⟩
  obtain ⟨hscheme, hauthority⟩ := hparts
  have hread := h.readHost?_authority.symm.trans (hauthority ▸ h'.readHost?_authority)
  obtain ⟨htext, hport⟩ := Prod.mk.inj (Option.some.inj hread)
  have hhost : s.host.written = s'.host.written := by
    have hboth : s.host.written ++ ':' :: s.port = s'.host.written ++ ':' :: s'.port := hauthority
    rw [hport] at hboth
    exact List.append_cancel_right hboth
  exact Spelling.ext hscheme (h.host.eq_of_text h'.host htext hhost) hport

end Spelling

/-- **Which texts are addresses.**  A text is read as an address exactly when it has a valid spelling of
this address, and a text has one valid spelling at most. -/
theorem read?_eq_some_iff_spelling :
    (∀ (text : List Char) (address : Address), read? text = some address ↔
        ∃ s : Spelling, s.IsValid ∧ s.written = text ∧ s.address = address) ∧
      ∀ s s' : Spelling, s.IsValid → s'.IsValid → s.written = s'.written → s = s' := by
  refine ⟨fun text address => ⟨Spelling.exists_of_read?, ?_⟩, fun s s' h h' => h.eq_of_written h'⟩
  rintro ⟨s, hvalid, rfl, rfl⟩
  exact hvalid.read?_written

end ServiceDirectory.Address

import ServiceDirectory.Proofs.Address.Grammar

/-!
# Addresses are read back

Every address is written, whatever its scheme and its host hold, and the written form has a spelling
(`Address.spelling`).  The address is read back from it exactly when it is canonical
(`Address.IsCanonical`): its parts are such as can be read, and its scheme is in lower case.

An address that was read is canonical, so it is read back (`read?_write`), although its written form may
differ from the text that it was read from: the scheme is in lower case and the port has no zeros in front.
-/

namespace ServiceDirectory

namespace Address

attribute [ext] Address

variable {text : List Char} {a : Address}

theorem SchemeForm.lower (h : SchemeForm text) : SchemeForm (text.map Char.toLower) := by
  obtain ⟨first, rest, rfl, hfirst, hrest⟩ := h
  have hletter : ∀ {c : Char}, c.isAlpha = true → c.toLower.isAlpha = true := by
    intro c hc
    by_cases hupper : c.isUpper = true
    · exact Text.isAlpha_iff.mpr (.inr (Text.isLower_toLower hupper))
    · rwa [Text.toLower_of_not_upper hupper]
  refine ⟨first.toLower, rest.map Char.toLower, rfl, hletter hfirst, ?_⟩
  intro c hc
  obtain ⟨d, hd, rfl⟩ := List.mem_map.mp hc
  rcases hrest d hd with hd | hd
  · exact .inl (hletter hd)
  · -- what is no letter stays as it is
    have hupper : ¬ d.isUpper = true := by
      rcases hd with hd | rfl | rfl | rfl
      · have hrange := Char.isDigit_iff_toNat.mp hd
        have h9 : '9'.toNat = 57 := rfl
        rw [Text.isUpper_iff]
        omega
      all_goals decide
    rw [Text.toLower_of_not_upper hupper]
    exact .inr hd

/-! ## Canonical addresses -/

/-- The parts of an address can be read, and its scheme is in lower case. -/
structure IsCanonical (address : Address) : Prop where
  scheme : ∀ scheme ∈ address.scheme, IsScheme scheme.toList ∧ ∀ c ∈ scheme.toList, c.isUpper = false
  host : IsHost address.host.toList ∨ ∃ v6, Net.IPv6.read? address.host.toList = some v6
  port : address.port ≠ 0

/-- The spelling of the written form. -/
def spelling (address : Address) : Spelling where
  scheme := address.scheme.map String.toList
  host :=
    if ':' ∈ address.host.toList then .ipv6 address.host.toList
    else if (Net.IPv4.read? address.host.toList).isSome then .ipv4 address.host.toList
    else .name address.host.toList
  port := Nat.toDigits 10 address.port.toNat

theorem written_spelling (address : Address) : address.spelling.written = address.write := by
  have hhost : address.spelling.host.written =
      if ':' ∈ address.host.toList then '[' :: address.host.toList ++ [']']
      else address.host.toList := by
    simp only [spelling]
    split
    · rfl
    · split <;> rfl
  rw [Spelling.written, Spelling.authority, hhost, Address.write, List.append_assoc, spelling]
  cases address.scheme <;> rfl

/-- **What a valid spelling spells is canonical.** -/
theorem Spelling.IsValid.isCanonical_address {s : Spelling} (h : s.IsValid) : s.address.IsCanonical where
  scheme := by
    intro scheme hm
    obtain ⟨text, htext, rfl⟩ := Option.map_eq_some_iff.mp hm
    rw [String.toList_ofList]
    refine ⟨isScheme_iff.mpr (h.scheme text htext).lower, fun c hc => ?_⟩
    obtain ⟨d, -, rfl⟩ := List.mem_map.mp hc
    exact Bool.eq_false_iff.mpr (Text.not_isUpper_toLower d)
  host := by
    rw [address, String.toList_ofList]
    exact h.host.isHost_or_ipv6
  port := by
    obtain ⟨hpos, hle⟩ := h.port.range
    intro hzero
    have hvalue : (UInt16.ofNat (Nat.ofDigitChars 10 s.port 0)).toNat = 0 := congrArg UInt16.toNat hzero
    rw [UInt16.toNat_ofNat'] at hvalue
    omega

theorem IsCanonical.isValid_spelling (h : a.IsCanonical) : a.spelling.IsValid where
  scheme := by
    intro text hm
    obtain ⟨scheme, hscheme, rfl⟩ := Option.map_eq_some_iff.mp hm
    exact isScheme_iff.mp (h.scheme scheme hscheme).1
  host := by
    simp only [spelling]
    rcases h.host with hhost | ⟨v6, hv6⟩
    · have hcolon : ':' ∉ a.host.toList := by
        intro hm
        exact absurd (char_of_isHost hhost hm) (by decide)
      rw [if_neg hcolon]
      split
      next hv4 => exact Option.isSome_iff_exists.mp hv4
      next hv4 =>
        rcases isHost_iff.mp hhost with hread | hname
        · exact (hv4 (Option.isSome_iff_exists.mpr hread)).elim
        · exact hname
    · rw [if_pos (Net.IPv6.colon_of_read? hv6)]
      exact ⟨v6, hv6⟩
  port := by
    have hpos : 0 < a.port.toNat := by
      rw [Nat.pos_iff_ne_zero]
      exact fun hzero => h.port (UInt16.toNat_inj.mp hzero)
    have hlt := a.port.toNat_lt
    refine ⟨Nat.toDigits_ne_nil, fun c hc => Nat.isDigit_of_mem_toDigits (by decide) (by decide) hc, ?_⟩
    rw [spelling, Nat.ofDigitChars_ten_toDigits]
    omega

/-- The spelling of a canonical address spells it. -/
theorem IsCanonical.address_spelling (h : a.IsCanonical) : a.spelling.address = a := by
  have hscheme : a.spelling.address.scheme = a.scheme := by
    rw [Spelling.address, spelling, Option.map_map]
    cases hs : a.scheme with
    | none => rfl
    | some scheme =>
      have hlower : scheme.toList.map Char.toLower = scheme.toList :=
        (List.map_congr_left fun c hc =>
          Text.toLower_of_not_upper (by simp [(h.scheme scheme hs).2 c hc])).trans (List.map_id _)
      simp [hlower]
  have hhost : a.spelling.address.host = a.host := by
    have htext : a.spelling.host.text = a.host.toList := by
      simp only [spelling]
      split
      · rfl
      · split <;> rfl
    rw [Spelling.address, htext, String.ofList_toList]
  have hport : a.spelling.address.port = a.port := by
    rw [Spelling.address, spelling, Nat.ofDigitChars_ten_toDigits, UInt16.ofNat_toNat]
  exact Address.ext hscheme hhost hport

/-! ## Reading back -/

theorem isCanonical_of_read? (h : read? text = some a) : a.IsCanonical := by
  obtain ⟨s, hvalid, -, rfl⟩ := Spelling.exists_of_read? h
  exact hvalid.isCanonical_address

theorem IsCanonical.read?_write_self (h : a.IsCanonical) : read? a.write = some a := by
  rw [← written_spelling, h.isValid_spelling.read?_written, h.address_spelling]

/-- **An address that was read is read back** from its written form. -/
theorem read?_write (h : read? text = some a) : read? a.write = some a :=
  (isCanonical_of_read? h).read?_write_self

/-- **Which addresses are read back**: exactly the canonical ones.  All that are read are among these, so
what is written of them reads as the same address and is written in the same way again; and the written
form of a canonical address is that of no other. -/
theorem read?_write_eq_self_iff :
    (∀ a : Address, read? a.write = some a ↔ a.IsCanonical) ∧
      (∀ (text : List Char) (a : Address), read? text = some a →
        a.IsCanonical ∧ read? a.write = some a ∧ (read? a.write).map write = some a.write) ∧
      ∀ a b : Address, a.IsCanonical → b.IsCanonical → a.write = b.write → a = b := by
  refine ⟨fun a => ⟨isCanonical_of_read?, IsCanonical.read?_write_self⟩, fun text a h => ?_,
    fun a b ha hb heq => ?_⟩
  · have hback := read?_write h
    exact ⟨isCanonical_of_read? h, hback, by rw [hback, Option.map_some]⟩
  · have hsame := ha.read?_write_self
    rw [heq, hb.read?_write_self] at hsame
    exact (Option.some.inj hsame).symm

/-- A scheme in upper case is read back in lower case. -/
example : read? (write ⟨some "WS", "::1", 80⟩) = some ⟨some "ws", "::1", 80⟩ := by
  decide +kernel

end Address

end ServiceDirectory

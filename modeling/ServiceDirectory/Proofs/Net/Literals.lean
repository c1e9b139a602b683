import ServiceDirectory.Net.IPv6
import ServiceDirectory.Proofs.Text.Cut

/-!
# What IP addresses are made of

Which characters stand in the written form of an IPv4 or IPv6 address, and how long it can be.  An IPv6
address always holds a colon, and neither kind holds a bracket or a slash, so an address of a service can
be taken apart around it.
-/

namespace ServiceDirectory

/-- Where a list is read, each of its members is. -/
theorem map_of_mapM {f : α → Option β} {l : List α} {l' : List β} (h : l.mapM f = some l') :
    l.map f = l'.map some := by
  induction l generalizing l' with
  | nil =>
    obtain rfl := Option.some.inj h
    rfl
  | cons a l ih =>
    simp only [List.mapM_cons, Option.bind_eq_bind, Option.bind_eq_some_iff] at h
    obtain ⟨b, hb, rest, hrest, heq⟩ := h
    obtain rfl := Option.some.inj heq
    rw [List.map_cons, List.map_cons, hb, ih hrest]

namespace Hex

/-- A digit, or a letter up to f. -/
def IsDigit (c : Char) : Prop := (value? c).isSome = true

instance (c : Char) : Decidable (IsDigit c) := by
  unfold IsDigit; infer_instance

theorem isDigit_of_decimal {c : Char} (h : c.isDigit = true) : IsDigit c := by
  have hrange : '0' ≤ c ∧ c ≤ '9' := by simpa [Char.isDigit, Char.le_def] using h
  have hupper : ¬ ('A' ≤ c ∧ c ≤ 'F') := by
    rintro ⟨hA, -⟩
    exact absurd (Char.le_trans hA hrange.2) (by decide)
  rw [IsDigit, value?, if_neg hupper, lowerValue?, if_pos hrange]
  rfl

theorem isDigit_of_ofDigits? {digits : List Char} {n : Nat} (h : ofDigits? digits = some n) :
    ∀ c ∈ digits, IsDigit c := by
  rw [ofDigits?] at h
  generalize 0 = begun at h
  induction digits generalizing begun with
  | nil => exact fun c hc => nomatch hc
  | cons d digits ih =>
    simp only [List.foldlM_cons, Option.bind_eq_bind, Option.bind_eq_some_iff] at h
    obtain ⟨sum, hd, hrest⟩ := h
    intro c hc
    rcases List.mem_cons.mp hc with rfl | hc
    · obtain ⟨value, hvalue, -⟩ := Option.map_eq_some_iff.mp hd
      rw [IsDigit, hvalue]
      rfl
    · exact ih _ hrest c hc

end Hex

namespace Net

variable {text : List Char}

/-! ## IPv4 -/

namespace IPv4

/-- One to three digits. -/
structure IsOctet (digits : List Char) : Prop where
  length_le : digits.length ≤ 3
  decimal : ∀ c ∈ digits, c.isDigit = true

theorem isOctet_of_octet? {digits : List Char} {octet : UInt8} (h : octet? digits = some octet) :
    IsOctet digits := by
  rw [octet?] at h
  split at h
  next hdigits => exact ⟨hdigits.2.1, List.all_eq_true.mp hdigits.2.2.1⟩
  next => cases h

/-- An IPv4 address has four numbers. -/
theorem octets_of_read? {address : IPv4} (h : read? text = some address) :
    (text.splitOn '.').length = 4 ∧ ∀ piece ∈ text.splitOn '.', IsOctet piece := by
  rw [read?] at h
  split at h
  next hoctets =>
    have hall := map_of_mapM hoctets
    refine ⟨by simpa using congrArg List.length hall, fun piece hp => ?_⟩
    have hm := List.mem_map_of_mem (f := octet?) hp
    rw [hall] at hm
    obtain ⟨octet, -, hoctet⟩ := List.mem_map.mp hm
    exact isOctet_of_octet? hoctet.symm
  next => cases h

theorem length_of_read? {address : IPv4} (h : read? text = some address) :
    text ≠ [] ∧ text.length ≤ 16 := by
  obtain ⟨hcount, hoctets⟩ := octets_of_read? h
  constructor
  · rintro rfl
    exact absurd hcount (by decide)
  · have hlength := Text.length_intercalate_le ['.'] fun piece hp => (hoctets piece hp).length_le
    rw [List.intercalate_splitOn, hcount] at hlength
    exact hlength

theorem char_of_read? {address : IPv4} (h : read? text = some address) :
    ∀ c ∈ text, c.isDigit = true ∨ c = '.' := by
  intro c hc
  by_cases hpoint : c = '.'
  · exact .inr hpoint
  · obtain ⟨piece, hp, hm⟩ := Text.exists_mem_splitOn hc hpoint
    exact .inl (((octets_of_read? h).2 piece hp).decimal c hm)

end IPv4

/-! ## IPv6 -/

namespace IPv6

theorem char_of_group? {digits : List Char} {group : UInt16} (h : group? digits = some group) :
    ∀ c ∈ digits, Hex.IsDigit c := by
  rw [group?] at h
  split at h
  · cases h
  · obtain ⟨n, hn, -⟩ := Option.map_eq_some_iff.mp h
    exact Hex.isDigit_of_ofDigits? hn

theorem char_of_groupsOf? {mayEndInIPv4 : Bool} {pieces : List (List Char)} {groups : List UInt16}
    (h : groupsOf? mayEndInIPv4 pieces = some groups) :
    ∀ piece ∈ pieces, ∀ c ∈ piece, Hex.IsDigit c ∨ c = '.' := by
  fun_induction groupsOf? mayEndInIPv4 pieces generalizing groups with
  | case1 => exact fun piece hp => nomatch hp
  | case2 last group hgroup =>
    intro piece hp c hc
    obtain rfl := List.mem_singleton.mp hp
    exact .inl (char_of_group? hgroup c hc)
  | case3 last hgroup hends =>
    intro piece hp c hc
    obtain rfl := List.mem_singleton.mp hp
    obtain ⟨v4, hv4, -⟩ := Option.map_eq_some_iff.mp h
    exact (IPv4.char_of_read? hv4 c hc).imp_left Hex.isDigit_of_decimal
  | case4 => cases h
  | case5 digits more hmore ih =>
    simp only [Option.bind_eq_bind, Option.bind_eq_some_iff] at h
    obtain ⟨group, hgroup, rest, hrest, -⟩ := h
    intro piece hp c hc
    rcases List.mem_cons.mp hp with rfl | hp
    · exact .inl (char_of_group? hgroup c hc)
    · exact ih hrest piece hp c hc

/-- A character that can stand in an IPv6 address. -/
def IsChar (c : Char) : Prop := Hex.IsDigit c ∨ c = '.' ∨ c = ':'

instance (c : Char) : Decidable (IsChar c) := by
  unfold IsChar; infer_instance

theorem char_of_side? {mayEndInIPv4 : Bool} {groups : List UInt16}
    (h : side? mayEndInIPv4 text = some groups) : ∀ c ∈ text, IsChar c := by
  rw [side?] at h
  intro c hc
  rw [if_neg (List.ne_nil_of_mem hc)] at h
  by_cases hcolon : c = ':'
  · exact .inr (.inr hcolon)
  · obtain ⟨piece, hp, hm⟩ := Text.exists_mem_splitOn hc hcolon
    exact (char_of_groupsOf? h piece hp c hm).imp_right .inl

theorem char_of_read? {address : IPv6} (h : read? text = some address) : ∀ c ∈ text, IsChar c := by
  rw [read?] at h
  split at h
  · simp only [Option.bind_eq_bind, Option.bind_eq_some_iff] at h
    obtain ⟨groups, hgroups, -⟩ := h
    exact char_of_side? hgroups
  next front back hcut =>
    simp only [Option.bind_eq_bind, Option.bind_eq_some_iff] at h
    obtain ⟨groups, hfront, groups', hback, -⟩ := h
    rw [Text.eq_append_of_cutAt hcut]
    intro c hc
    simp only [List.mem_append] at hc
    rcases hc with hc | hc | hc
    · exact char_of_side? hfront c hc
    · exact .inr (.inr (by simpa using hc))
    · exact char_of_side? hback c hc

/-- An IPv6 address holds a colon: without one it has at most two groups. -/
theorem colon_of_read? {address : IPv6} (h : read? text = some address) : ':' ∈ text := by
  by_contra hcolon
  have hcut : Text.cutAt [':', ':'] text = none := by
    rw [Text.cutAt_eq_none_iff (by simp)]
    exact fun hoccurs => hcolon (hoccurs.subset (by simp))
  have hsplit : text.splitOn ':' = [text] := by
    have hone : ([':'].intercalate [text]).splitOn ':' = [text] :=
      List.splitOn_intercalate ':' (by simpa using hcolon) (by simp)
    rwa [List.intercalate_singleton] at hone
  have hfew : ∀ groups, side? true text = some groups → groups.length ≠ 8 := by
    intro groups hg
    rw [side?, hsplit, groupsOf?] at hg
    split at hg
    · obtain rfl := Option.some.inj hg
      simp
    split at hg
    · obtain rfl := Option.some.inj hg
      simp
    · obtain ⟨v4, -, rfl⟩ := Option.map_eq_some_iff.mp hg
      simp [ofIPv4]
  simp only [read?, hcut, Option.bind_eq_bind, Option.bind_eq_some_iff] at h
  obtain ⟨groups, hgroups, height⟩ := h
  rw [dif_neg (hfew groups hgroups)] at height
  cases height

end IPv6

end Net

end ServiceDirectory

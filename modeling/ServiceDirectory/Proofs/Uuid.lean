import Mathlib.Data.List.Forall2
import ServiceDirectory.Proofs.Digits
import ServiceDirectory.Proofs.Text.Pieces
import ServiceDirectory.Uuid

/-!
# Identifiers and their written form

The texts of the written form are those of five groups of lower-case digits (`Uuid.Form`).  The strict
reader takes these and no others, and each is the written form of the identifier that is read from it
(`read?_eq_some_iff`), so that a text of an identifier is a name for it and the only one.

The form can as well be checked byte by byte, each place for itself (`shape_iff_form`).  A text that passes
is then read by the liberal reader, which takes other texts too, as it is by the strict one
(`readAnyForm?_write`).
-/

namespace ServiceDirectory

theorem Hex.isLowerDigit_of_mem_digits {k n : Nat} {c : Char} (h : c ∈ Hex.digits k n) :
    Hex.IsLowerDigit c := by
  induction k generalizing n with
  | zero => exact nomatch h
  | succ k ih =>
    rcases List.mem_append.mp h with h | h
    · exact ih h
    · obtain rfl := List.mem_singleton.mp h
      rw [Hex.isLowerDigit_iff, Hex.lowerValue?_digit (Nat.mod_lt n (by decide))]
      rfl

namespace Uuid

variable {text : List Char} {groups : List (List Char)} {id : Uuid}

/-! ## Pieces of given lengths -/

theorem mem_of_mem_pieces {lengths : List Nat} {xs piece : List α} {x : α}
    (hp : piece ∈ pieces lengths xs) (hx : x ∈ piece) : x ∈ xs := by
  induction lengths generalizing xs with
  | nil => exact nomatch hp
  | cons n lengths ih =>
    rcases List.mem_cons.mp hp with rfl | hp
    · exact List.mem_of_mem_take hx
    · exact List.mem_of_mem_drop (ih hp)

/-- Pieces that take all of a list make up the list. -/
theorem flatten_pieces {lengths : List Nat} {xs : List α} (h : xs.length = lengths.sum) :
    (pieces lengths xs).flatten = xs := by
  induction lengths generalizing xs with
  | nil => exact (List.eq_nil_of_length_eq_zero h).symm
  | cons n lengths ih =>
    rw [pieces, List.flatten_cons, ih, List.take_append_drop]
    rw [List.length_drop, h, List.sum_cons]
    omega

theorem map_length_pieces {lengths : List Nat} {xs : List α} (h : xs.length = lengths.sum) :
    (pieces lengths xs).map List.length = lengths := by
  induction lengths generalizing xs with
  | nil => rfl
  | cons n lengths ih =>
    rw [List.sum_cons] at h
    rw [pieces, List.map_cons, ih, List.length_take, Nat.min_eq_left (by omega)]
    rw [List.length_drop]
    omega

/-- Lists of given lengths are the pieces of what they make up. -/
theorem pieces_flatten (xss : List (List α)) : pieces (xss.map List.length) xss.flatten = xss := by
  induction xss with
  | nil => rfl
  | cons xs xss ih =>
    rw [List.map_cons, List.flatten_cons, pieces, List.take_left, List.drop_left, ih]

/-! ## The written form -/

/-- Five groups of 8, 4, 4, 4 and 12 lower-case digits with hyphens between them. -/
def Form (text : List Char) : Prop :=
  ∃ groups : List (List Char), text = ['-'].intercalate groups ∧
    groups.map List.length = [8, 4, 4, 4, 12] ∧ ∀ group ∈ groups, ∀ c ∈ group, Hex.IsLowerDigit c

/-- What the strict reader makes of five groups is the identifier with their digits. -/
theorem read?_intercalate (hlengths : groups.map List.length = groupLengths)
    (hlower : ∀ group ∈ groups, ∀ c ∈ group, Hex.IsLowerDigit c) :
    read? (['-'].intercalate groups) = ofDigits? groups.flatten := by
  have hsplit : (['-'].intercalate groups).splitOn '-' = groups := by
    -- no digit is a hyphen
    refine List.splitOn_intercalate '-' (fun group hg hm => ?_) ?_
    · exact absurd (hlower group hg '-' hm) (by decide)
    · rintro rfl
      exact absurd hlengths (by decide)
  have hall : (['-'].intercalate groups).all (fun c => c = '-' || (Hex.lowerValue? c).isSome) = true := by
    rw [List.all_eq_true]
    intro c hc
    by_cases hhyphen : c = '-'
    · simp [hhyphen]
    · obtain ⟨group, hg, hm⟩ := Text.exists_mem_splitOn hc hhyphen
      simp [Hex.isLowerDigit_iff.mp (hlower group (hsplit ▸ hg) c hm)]
  rw [read?, if_pos hall, ofGroups?, hsplit, if_pos hlengths]

theorem ofDigits?_digits (id : Uuid) : ofDigits? (Hex.digits 32 id.bits.toNat) = some id := by
  have hbits : id.bits.toNat % 16 ^ 32 = id.bits.toNat := Nat.mod_eq_of_lt id.bits.isLt
  rw [ofDigits?, if_pos (Hex.length_digits 32 _), Hex.ofDigits?_digits, hbits, Option.map_some]
  simp

theorem exists_groups_write (id : Uuid) :
    ∃ groups : List (List Char), id.write = ['-'].intercalate groups ∧
      groups.map List.length = groupLengths ∧ (∀ group ∈ groups, ∀ c ∈ group, Hex.IsLowerDigit c) ∧
      groups.flatten = Hex.digits 32 id.bits.toNat := by
  have hlength : (Hex.digits 32 id.bits.toNat).length = groupLengths.sum := Hex.length_digits 32 _
  refine ⟨_, rfl, map_length_pieces hlength, fun piece hp c hc => ?_, flatten_pieces hlength⟩
  exact Hex.isLowerDigit_of_mem_digits (mem_of_mem_pieces hp hc)

/-- **An identifier is read back** from its written form. -/
theorem read?_write (id : Uuid) : read? id.write = some id := by
  obtain ⟨groups, hwrite, hlengths, hlower, hdigits⟩ := exists_groups_write id
  rw [hwrite, read?_intercalate hlengths hlower, hdigits, ofDigits?_digits]

/-- Five groups of digits are the written form of some identifier. -/
theorem Form.exists_write (h : Form text) : ∃ id : Uuid, id.write = text := by
  obtain ⟨groups, rfl, hlengths, hlower⟩ := h
  have hlength : groups.flatten.length = 32 := by
    rw [List.length_flatten, hlengths]
    rfl
  have hdigit : ∀ c ∈ groups.flatten, Hex.IsLowerDigit c := by
    intro c hc
    obtain ⟨group, hg, hc⟩ := List.mem_flatten.mp hc
    exact hlower group hg c hc
  obtain ⟨n, hn, hdigits⟩ := Hex.exists_digits hdigit
  rw [hlength] at hn hdigits
  have hbits : n % 2 ^ 128 = n := Nat.mod_eq_of_lt hn
  refine ⟨⟨BitVec.ofNat 128 n⟩, ?_⟩
  rw [write, BitVec.toNat_ofNat, hbits, hdigits, groupLengths, ← hlengths, pieces_flatten]

theorem form_write (id : Uuid) : Form id.write := by
  obtain ⟨groups, hwrite, hlengths, hlower, -⟩ := exists_groups_write id
  exact ⟨groups, hwrite, hlengths, hlower⟩

/-- Only five groups of digits are read. -/
theorem form_of_read? (h : read? text = some id) : Form text := by
  rw [read?] at h
  split at h
  case isFalse => cases h
  next hall =>
  rw [ofGroups?] at h
  split at h
  case isFalse => cases h
  next hlengths =>
  have hjoined : ['-'].intercalate (text.splitOn '-') = text := List.intercalate_splitOn '-'
  refine ⟨text.splitOn '-', hjoined.symm, hlengths, fun group hg c hc => ?_⟩
  have hmem : c ∈ ['-'].intercalate (text.splitOn '-') := Text.mem_intercalate hg hc
  have hne : c ≠ '-' := fun heq => Text.not_mem_of_mem_splitOn hg (heq ▸ hc)
  rw [hjoined] at hmem
  rw [Hex.isLowerDigit_iff]
  simpa [hne] using List.all_eq_true.mp hall c hmem

/-- **The texts of identifiers.**  A text is read as an identifier when it is the written form of it. -/
theorem read?_eq_some_iff : read? text = some id ↔ id.write = text := by
  constructor
  · intro h
    obtain ⟨other, rfl⟩ := (form_of_read? h).exists_write
    rw [read?_write] at h
    rw [Option.some.inj h]
  · rintro rfl
    exact read?_write id

/-- The texts of the form are the written forms. -/
theorem form_iff : Form text ↔ ∃ id : Uuid, id.write = text :=
  ⟨Form.exists_write, fun ⟨id, h⟩ => h ▸ form_write id⟩

theorem toText_inj {id other : Uuid} : id.toText = other.toText ↔ id = other := by
  constructor
  · intro h
    have hread := read?_write id
    rw [String.ofList_injective h, read?_write] at hread
    exact (Option.some.inj hread).symm
  · exact congrArg toText

/-! ## The form place by place -/

/-- A list meets others with a separator between them, place by place, when it is made up of lists that
meet these, with a separator of its own between them. -/
theorem forall₂_intercalate_iff {R : α → β → Prop} {a : α} {b : β} (hsep : ∀ x, R x b ↔ x = a)
    {xs : List α} {blocks : List (List β)} :
    List.Forall₂ R xs ([b].intercalate blocks) ↔
      ∃ pieces, xs = [a].intercalate pieces ∧ List.Forall₂ (List.Forall₂ R) pieces blocks := by
  induction blocks generalizing xs with
  | nil =>
    rw [List.intercalate_nil, List.forall₂_nil_right_iff]
    constructor
    · rintro rfl
      exact ⟨[], rfl, .nil⟩
    · rintro ⟨pieces, rfl, hpieces⟩
      rw [List.forall₂_nil_right_iff.mp hpieces]
      rfl
  | cons block blocks ih =>
    cases blocks with
    | nil =>
      rw [List.intercalate_singleton]
      constructor
      · intro h
        exact ⟨[xs], (List.intercalate_singleton ..).symm, .cons h .nil⟩
      · rintro ⟨pieces, rfl, hpieces⟩
        obtain ⟨piece, others, hpiece, hothers, rfl⟩ := List.forall₂_cons_right_iff.mp hpieces
        rw [List.forall₂_nil_right_iff.mp hothers, List.intercalate_singleton]
        exact hpiece
    | cons next blocks =>
      rw [List.intercalate_cons_cons, List.append_assoc]
      constructor
      · intro h
        have hfront := List.forall₂_take_append _ _ _ h
        have hback := List.forall₂_drop_append _ _ _ h
        obtain ⟨c, rest, hc, hrest, hdrop⟩ := List.forall₂_cons_right_iff.mp hback
        obtain ⟨pieces, rfl, hpieces⟩ := ih.mp hrest
        obtain ⟨piece, others, -, -, rfl⟩ := List.forall₂_cons_right_iff.mp hpieces
        refine ⟨_ :: piece :: others, ?_, .cons hfront hpieces⟩
        rw [(hsep c).mp hc] at hdrop
        rw [List.intercalate_cons_cons, List.append_assoc, List.singleton_append, ← hdrop,
          List.take_append_drop]
      · rintro ⟨pieces, rfl, hpieces⟩
        obtain ⟨piece, others, hpiece, hothers, rfl⟩ := List.forall₂_cons_right_iff.mp hpieces
        obtain ⟨second, more, -, -, rfl⟩ := List.forall₂_cons_right_iff.mp hothers
        rw [List.intercalate_cons_cons, List.append_assoc]
        exact List.rel_append hpiece (.cons ((hsep a).mpr rfl) (ih.mpr ⟨_, rfl, hothers⟩))

/-- A character fits a place of the written form, which is one for a hyphen or for a digit. -/
def Fits (c : Char) (hyphen : Bool) : Prop := if hyphen then c = '-' else Hex.IsLowerDigit c

/-- The places of the written form: of each, whether it is one for a hyphen. -/
def places : List Bool := [true].intercalate (groupLengths.map fun n => List.replicate n false)

theorem forall₂_fits_replicate {group : List Char} {n : Nat} :
    List.Forall₂ Fits group (List.replicate n false) ↔
      (∀ c ∈ group, Hex.IsLowerDigit c) ∧ group.length = n := by
  induction group generalizing n with
  | nil => cases n <;> simp [List.replicate_succ]
  | cons c group ih => cases n <;> simp [List.replicate_succ, Fits, ih, and_assoc]

theorem form_iff_fits : Form text ↔ List.Forall₂ Fits text places := by
  have hhyphen : ∀ c, Fits c true ↔ c = '-' := by simp [Fits]
  have hgroups : ∀ groups : List (List Char),
      List.Forall₂ (List.Forall₂ Fits) groups (groupLengths.map fun n => List.replicate n false) ↔
        (∀ group ∈ groups, ∀ c ∈ group, Hex.IsLowerDigit c) ∧
          groups.map List.length = groupLengths := by
    intro groups
    simp only [List.forall₂_map_right_iff, forall₂_fits_replicate, List.forall₂_and_left]
    rw [← List.forall₂_eq_eq_eq, List.forall₂_map_left_iff]
  simp only [places, forall₂_intercalate_iff hhyphen, hgroups, and_comm]
  rfl

/-- Five groups hold hyphens and digits only. -/
theorem Form.char (h : Form text) {c : Char} (hc : c ∈ text) : c = '-' ∨ Hex.IsLowerDigit c := by
  obtain ⟨hlength, hfits⟩ := List.forall₂_iff_get.mp (form_iff_fits.mp h)
  obtain ⟨i, hi, rfl⟩ := List.mem_iff_getElem.mp hc
  have hfit := hfits i hi (hlength ▸ hi)
  simp only [List.get_eq_getElem, Fits] at hfit
  split at hfit
  · exact .inl hfit
  · exact .inr hfit

theorem Form.toNat_lt (h : Form text) {c : Char} (hc : c ∈ text) : c.toNat < 103 := by
  rcases h.char hc with rfl | hdigit
  · decide
  · exact hdigit.toNat_lt

/-! ## The form byte by byte -/

/-- Where the hyphens of the written form stand. -/
def hyphenPlaces : List Nat := [8, 13, 18, 23]

/-- The byte of a digit in lower case. -/
def IsDigitByte (b : UInt8) : Prop :=
  (48 ≤ b.toNat ∧ b.toNat ≤ 57) ∨ (97 ≤ b.toNat ∧ b.toNat ≤ 102)

instance (b : UInt8) : Decidable (IsDigitByte b) := by
  unfold IsDigitByte; infer_instance

/-- The form byte by byte: 36 bytes, hyphens in their places and digits in all others. -/
structure Shape (bytes : Bytes) : Prop where
  length : bytes.length = 36
  hyphen : ∀ i (h : i < bytes.length), i ∈ hyphenPlaces → bytes[i] = 45
  digit : ∀ i (h : i < bytes.length), i ∉ hyphenPlaces → IsDigitByte bytes[i]

theorem getElem_places {i : Nat} (h : i < places.length) : places[i] = decide (i ∈ hyphenPlaces) := by
  have hall : ∀ i < 36, places[i]? = some (decide (i ∈ hyphenPlaces)) := by decide
  have hsome := hall i h
  rw [List.getElem?_eq_getElem h] at hsome
  exact Option.some.inj hsome

/-- A character below 128 is a hyphen, or a digit, when its byte is. -/
theorem byte_of_ascii : ∀ c : Char, c.toNat < 128 →
    (UInt8.ofNat c.toNat = 45 ↔ c = '-') ∧
      (IsDigitByte (UInt8.ofNat c.toNat) ↔ Hex.IsLowerDigit c) := by
  refine Text.of_forall_lt ?_
  decide

theorem shape_iff_of_ascii (h : ∀ c ∈ text, c.toNat < 128) :
    Shape (Utf8.encode text) ↔ Form text := by
  rw [Utf8.encode_of_ascii h, form_iff_fits, List.forall₂_iff_get]
  have hfits : ∀ i (hi : i < text.length) (hp : i < places.length), Fits text[i] places[i] ↔
      (i ∈ hyphenPlaces → UInt8.ofNat text[i].toNat = 45) ∧
        (i ∉ hyphenPlaces → IsDigitByte (UInt8.ofNat text[i].toNat)) := by
    intro i hi hp
    have hbyte := byte_of_ascii text[i] (h text[i] (List.getElem_mem hi))
    rw [getElem_places, Fits, hbyte.1, hbyte.2]
    by_cases hyphen : i ∈ hyphenPlaces <;> simp [hyphen]
  constructor
  · rintro ⟨hlength, hhyphen, hdigit⟩
    simp only [List.length_map, List.getElem_map] at hlength hhyphen hdigit
    exact ⟨hlength, fun i hi hp => (hfits i hi hp).mpr ⟨hhyphen i hi, hdigit i hi⟩⟩
  · rintro ⟨hlength, hget⟩
    have hplace := fun i hi => (hfits i hi (hlength ▸ hi)).mp (hget i hi (hlength ▸ hi))
    refine ⟨?_, ?_, ?_⟩ <;> simp only [List.length_map, List.getElem_map]
    · exact hlength
    · exact fun i hi => (hplace i hi).1
    · exact fun i hi => (hplace i hi).2

/-- **The form byte by byte**: the bytes of a text have the shape when its characters have the form.  A
character of more than one byte fits no place. -/
theorem shape_iff_form : Shape (Utf8.encode text) ↔ Form text := by
  constructor
  · intro h
    refine (shape_iff_of_ascii (Utf8.ascii_of_encode fun b hb => ?_)).mp h
    obtain ⟨i, hi, rfl⟩ := List.mem_iff_getElem.mp hb
    by_cases hyphen : i ∈ hyphenPlaces
    · rw [h.hyphen i hi hyphen]
      decide
    · have hrange := h.digit i hi hyphen
      unfold IsDigitByte at hrange
      omega
  · intro h
    exact (shape_iff_of_ascii fun c hc => Nat.lt_trans (h.toNat_lt hc) (by decide)).mpr h

/-! ## The liberal reader -/

/-- **The liberal reader takes the written form too** and reads the same from it: neither braces nor the
mark nor the length of digits alone lead it elsewhere. -/
theorem readAnyForm?_write (id : Uuid) : readAnyForm? id.write = some id := by
  have hform := form_write id
  have hlength : id.write.length = 36 := (form_iff_fits.mp hform).length_eq
  have hgroups : ofGroups? id.write = some id := by
    have hread := read?_write id
    rw [read?] at hread
    split at hread
    · exact hread
    · cases hread
  obtain ⟨first, rest, hwrite⟩ := List.exists_cons_of_length_pos (by omega : 0 < id.write.length)
  have hmem : first ∈ id.write := hwrite ▸ List.mem_cons_self
  -- the first character is neither a brace nor the first letter of the mark
  have hfirst : first ≠ '\x7b' ∧ first.toLower ≠ 'u' := by
    have hall : ∀ c : Char, c.toNat < 103 → c = '-' ∨ Hex.IsLowerDigit c →
        c ≠ '\x7b' ∧ c.toLower ≠ 'u' := by
      refine Text.of_forall_lt ?_
      decide
    exact hall first (hform.toNat_lt hmem) (hform.char hmem)
  have hbrace : id.write.head? ≠ some '\x7b' := by
    rw [hwrite]
    exact fun h => hfirst.1 (Option.some.inj h)
  have hmark : ¬ Text.EqIgnoringCase (id.write.take urnMark.length) urnMark := by
    rw [hwrite]
    exact fun h => hfirst.2 (List.cons.inj h).1
  rw [readAnyForm?, if_neg fun h => hbrace h.1, if_neg hmark, if_neg (by omega), hgroups]

end Uuid

end ServiceDirectory

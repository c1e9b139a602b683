import ServiceDirectory.Text.Ascii
import ServiceDirectory.Utf8

/-!
# ASCII

The letters A to Z in lower case are the letters a to z, and a character below 128 is written in one byte,
its code point.  A text whose bytes are all below 128 has no other characters, so that a condition on such
bytes can be read as one on characters.
-/

namespace ServiceDirectory

namespace Text

variable {c : Char}

/-! ## Kinds of characters -/

/-- What holds of all code points below a bound, of which there are finitely many, holds of the characters
below it. -/
theorem of_forall_lt {p : Char → Prop} {bound : Nat} (h : ∀ n < bound, p (Char.ofNat n)) :
    ∀ c : Char, c.toNat < bound → p c := by
  intro c hc
  have hn := h c.toNat hc
  rwa [Char.ofNat_toNat] at hn

theorem isUpper_iff : c.isUpper = true ↔ 65 ≤ c.toNat ∧ c.toNat ≤ 90 := decide_eq_true_iff

theorem isLower_iff : c.isLower = true ↔ 97 ≤ c.toNat ∧ c.toNat ≤ 122 :=
  Bool.and_eq_true_iff.trans (and_congr decide_eq_true_iff decide_eq_true_iff)

theorem isAlpha_iff : c.isAlpha = true ↔ c.isUpper = true ∨ c.isLower = true := Bool.or_eq_true_iff

theorem isAlphanum_iff : c.isAlphanum = true ↔ c.isAlpha = true ∨ c.isDigit = true :=
  Bool.or_eq_true_iff

/-! ## Lower case -/

theorem toLower_of_not_upper (h : ¬ c.isUpper = true) : c.toLower = c :=
  dif_neg fun hrange => h (isUpper_iff.mpr hrange)

theorem toNat_toLower (h : c.isUpper = true) : c.toLower.toNat = c.toNat + 32 := by
  have hrange := isUpper_iff.mp h
  have hlower : c.toLower.toNat = (c.val + ('a'.val - 'A'.val)).toNat :=
    congrArg Char.toNat (dif_pos hrange)
  have hshift : ('a'.val - 'A'.val).toNat = 32 := rfl
  have hval : c.val.toNat = c.toNat := rfl
  rw [hlower, UInt32.toNat_add]
  omega

theorem isLower_toLower (h : c.isUpper = true) : c.toLower.isLower = true := by
  have hrange := isUpper_iff.mp h
  rw [isLower_iff, toNat_toLower h]
  omega

theorem not_isUpper_toLower (c : Char) : ¬ c.toLower.isUpper = true := by
  by_cases h : c.isUpper = true
  · have hrange := isUpper_iff.mp h
    rw [isUpper_iff, toNat_toLower h]
    omega
  · rwa [toLower_of_not_upper h]

end Text

/-! ## One byte each -/

namespace Utf8

variable {c : Char} {text : List Char}

theorem encodeChar_of_ascii (h : c.toNat < 128) : String.utf8EncodeChar c = [UInt8.ofNat c.toNat] := by
  have hfirst : c.val.toNat ≤ 127 := Nat.le_of_lt_succ h
  simp only [String.utf8EncodeChar, hfirst, if_true]
  rfl

/-- Another character begins with a byte that no ASCII character has. -/
theorem exists_mem_encodeChar (h : 128 ≤ c.toNat) : ∃ b ∈ String.utf8EncodeChar c, 128 ≤ b.toNat := by
  have hfirst : ¬ c.val.toNat ≤ 127 := Nat.not_le.mpr h
  simp only [String.utf8EncodeChar, hfirst, if_false]
  split
  · refine ⟨_, List.mem_cons_self, ?_⟩
    rw [UInt8.toNat_ofNat']
    omega
  · split <;>
    · refine ⟨_, List.mem_cons_self, ?_⟩
      rw [UInt8.toNat_ofNat']
      omega

/-- The bytes of ASCII characters are their code points. -/
theorem encode_of_ascii (h : ∀ c ∈ text, c.toNat < 128) :
    encode text = text.map fun c => UInt8.ofNat c.toNat := by
  induction text with
  | nil => rfl
  | cons c text ih =>
    rw [encode, List.flatMap_cons, encodeChar_of_ascii (h c List.mem_cons_self), List.map_cons]
    exact congrArg (_ :: ·) (ih fun d hd => h d (List.mem_cons_of_mem _ hd))

/-- Bytes below 128 are those of ASCII characters. -/
theorem ascii_of_encode (h : ∀ b ∈ encode text, b.toNat < 128) : ∀ c ∈ text, c.toNat < 128 := by
  refine fun c hc => Nat.lt_of_not_le fun hlarge => ?_
  obtain ⟨b, hb, hle⟩ := exists_mem_encodeChar hlarge
  have := h b (List.mem_flatMap.mpr ⟨c, hc, hb⟩)
  omega

end Utf8

end ServiceDirectory

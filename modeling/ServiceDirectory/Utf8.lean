import ServiceDirectory.Bytes

/-!
# UTF-8

A character is written in one to four bytes.  The reader takes what the writer produces and nothing
else (`decode?_eq_some_iff`): each character in its shortest form, no surrogates and nothing above
U+10FFFF.
-/

namespace ServiceDirectory.Utf8

/-- The bytes of a text. -/
def encode (text : List Char) : Bytes :=
  text.flatMap String.utf8EncodeChar

/-- The text with given bytes; bytes that no text has give nothing. -/
def decode? (bytes : Bytes) : Option (List Char) :=
  (String.fromUTF8? bytes.toByteArray).map String.toList

theorem decode?_eq_some_iff {bytes : Bytes} {text : List Char} :
    decode? bytes = some text ↔ bytes = encode text := by
  unfold decode? String.fromUTF8?
  constructor
  · intro h
    split at h
    · next valid =>
      have back := String.utf8Encode_toList (b := String.fromUTF8 bytes.toByteArray valid)
      rw [Option.some.inj h] at back
      simpa [String.fromUTF8, List.utf8Encode, encode] using back.symm
    · simp at h
  · rintro rfl
    rw [dif_pos ⟨text, rfl⟩, Option.map_some, Option.some.injEq]
    apply String.ofList_injective
    rw [String.ofList_toList, ← String.toByteArray_inj, String.toByteArray_ofList]
    rfl

theorem decode?_encode (text : List Char) : decode? (encode text) = some text :=
  decode?_eq_some_iff.2 rfl

end ServiceDirectory.Utf8

import ServiceDirectory.Proofs.Digits
import ServiceDirectory.Proofs.WebSocket.Arrival

/-!
# Frames on the wire

`Frame.Spells` says bit by bit which bytes are a final frame that is not masked: the FIN bit set, the
reserved bits and the mask bit clear, an opcode with a meaning, the length in one of the three forms,
and the payload.  `Frame.write` spells the frame that it was asked for (`spells_write`), and a reader
takes exactly that frame (`readUnmasked?_of_spells`).

The second part is about frames that were read.  A pong repeats the payload of a ping and a close frame
the code of another; that these may be sent rests on what `Frame.readMasked` checked
(`sound_of_readMasked`).
-/

namespace ServiceDirectory.WebSocket

/-! ## Length fields -/

/-- A form has room for a length. -/
def LengthForm.Holds : LengthForm → Nat → Prop
  | inSecondByte, n => n < 126
  | inTwoBytes, n => n < 2 ^ 16
  | inEightBytes, n => n < 2 ^ 64

/-- The high bit of a byte and the number in the seven bits below it. -/
theorem flag_or_low {flag : UInt8} (hflag : flag = 0 ∨ flag = 0x80) {n : Nat} (hn : n < 128) :
    (flag ||| UInt8.ofNat n) &&& 0x80 = flag ∧
      (flag ||| UInt8.ofNat n) &&& 0x7F = UInt8.ofNat n := by
  have hbytes : ∀ m : Fin 128, ∀ bit : Fin 2,
      (UInt8.ofNat (128 * bit) ||| UInt8.ofNat m) &&& 0x80 = UInt8.ofNat (128 * bit) ∧
        (UInt8.ofNat (128 * bit) ||| UInt8.ofNat m) &&& 0x7F = UInt8.ofNat m := by decide
  rcases hflag with rfl | rfl
  · exact hbytes ⟨n, hn⟩ 0
  · exact hbytes ⟨n, hn⟩ 1

/-- A length field tells the length, in every form that has room for it; the longest counts the length
as a word of 64 bits. -/
theorem LengthForm.read?_write {form : LengthForm} {flag : UInt8} (hflag : flag = 0 ∨ flag = 0x80)
    {n : Nat} (hroom : form.Holds n ∨ form = .inEightBytes) :
    ∃ second digits, form.write flag n = second :: digits ∧ second &&& 0x80 = flag ∧
      announcedBy (second &&& 0x7F) = form ∧ digits.length = form.extension ∧
      read? (second &&& 0x7F) digits = some (UInt64.ofNat n) := by
  have hsplit : ∀ k, Bytes.split? k (BigEndian.ofNat k n) = some (BigEndian.ofNat k n, []) :=
    fun k => Bytes.split?_eq_some_iff.mpr ⟨by simp, by simp⟩
  cases form with
  | inSecondByte =>
    have hn : n < 126 := by
      rcases hroom with hn | hother
      · exact hn
      · cases hother
    obtain ⟨hhigh, hlow⟩ := flag_or_low hflag (show n < 128 by omega)
    have hvalue : (UInt8.ofNat n).toNat = n := by rw [UInt8.toNat_ofNat', Nat.mod_eq_of_lt (by omega)]
    have hform : announcedBy (UInt8.ofNat n) = .inSecondByte := by
      have hne : ∀ m : UInt8, 126 ≤ m.toNat → UInt8.ofNat n ≠ m := by
        intro m hm heq
        rw [← heq, hvalue] at hm
        omega
      rw [announcedBy, if_neg (hne 126 (by decide)), if_neg (hne 127 (by decide))]
    refine ⟨_, [], rfl, hhigh, by rw [hlow, hform], rfl, ?_⟩
    rw [hlow]
    simp only [read?, hform]
    exact congrArg some (UInt64.toNat_inj.mp (by simp [hvalue]; omega))
  | inTwoBytes =>
    obtain ⟨hhigh, hlow⟩ := flag_or_low hflag (show 126 < 128 by omega)
    have hform : announcedBy ((flag ||| 126) &&& 0x7F) = .inTwoBytes := by
      rw [show (flag ||| 126) &&& 0x7F = 126 from hlow]
      rfl
    have hn : n < 2 ^ 16 := by
      rcases hroom with hn | hother
      · exact hn
      · cases hother
    refine ⟨_, _, rfl, hhigh, hform, BigEndian.length_ofNat 2 n, ?_⟩
    have hvalue : n % 256 ^ 2 = n := Nat.mod_eq_of_lt (by omega)
    simp only [read?, hform, extension, hsplit, Option.map_some, BigEndian.toNat_ofNat, hvalue]
  | inEightBytes =>
    obtain ⟨hhigh, hlow⟩ := flag_or_low hflag (show 127 < 128 by omega)
    have hform : announcedBy ((flag ||| 127) &&& 0x7F) = .inEightBytes := by
      rw [show (flag ||| 127) &&& 0x7F = 127 from hlow]
      rfl
    refine ⟨_, _, rfl, hhigh, hform, BigEndian.length_ofNat 8 n, ?_⟩
    have hvalue : UInt64.ofNat (n % 256 ^ 8) = UInt64.ofNat n := UInt64.toNat_inj.mp (by simp)
    simp only [read?, hform, extension, hsplit, Option.map_some, BigEndian.toNat_ofNat, hvalue]

namespace Frame

/-! ## Frames that are not masked -/

/-- The bytes of a final frame that is not masked.  The length counts as a word of 64 bits. -/
inductive Spells (opcode : Opcode) (payload : Bytes) : Bytes → Prop
  | mk {first second : UInt8} {digits : Bytes} (final : first &&& 0x80 ≠ 0)
    (reserved : first &&& 0x70 = 0) (kind : Opcode.ofByte? (first &&& 0x0F) = some opcode)
    (unmasked : second &&& 0x80 = 0)
    (form : digits.length = (LengthForm.announcedBy (second &&& 0x7F)).extension)
    (length : LengthForm.read? (second &&& 0x7F) digits = some (UInt64.ofNat payload.length)) :
    Spells opcode payload (first :: second :: digits ++ payload)

/-- The length field of a frame that is not masked tells the length. -/
theorem read?_write_shortest (n : Nat) :
    ∃ second digits, (LengthForm.shortest n).write 0 n = second :: digits ∧ second &&& 0x80 = 0 ∧
      digits.length = (LengthForm.announcedBy (second &&& 0x7F)).extension ∧
      LengthForm.read? (second &&& 0x7F) digits = some (UInt64.ofNat n) := by
  have hroom : (LengthForm.shortest n).Holds n ∨ LengthForm.shortest n = .inEightBytes := by
    unfold LengthForm.shortest
    split
    · next hn => exact .inl hn
    split
    · next hn => exact .inl (Nat.lt_succ_of_le hn)
    · exact .inr rfl
  obtain ⟨second, digits, hw, hflag, hform, hdigits, hlength⟩ :=
    LengthForm.read?_write (.inl rfl) hroom
  exact ⟨second, digits, hw, hflag, hform ▸ hdigits, hlength⟩

/-- **What is written is a final frame that is not masked.** -/
theorem spells_write (opcode : Opcode) (payload : Bytes) :
    Spells opcode payload (write opcode payload) := by
  obtain ⟨second, digits, hw, hmask, hform, hlength⟩ := read?_write_shortest payload.length
  rw [write, hw]
  refine .mk ?_ ?_ ?_ hmask hform hlength
  all_goals cases opcode <;> decide

/-- A reader takes the frame, whatever follows it, as long as a word holds its length. -/
theorem readUnmasked?_of_spells {opcode : Opcode} {payload bytes : Bytes}
    (h : Spells opcode payload bytes) (hword : payload.length < 2 ^ 64) (rest : Bytes) :
    readUnmasked? (bytes ++ rest) = some ({ final := true, opcode, payload }, rest) := by
  obtain @⟨first, second, digits, hfinal, _, hkind, _, hform, hlength⟩ := h
  have hread := LengthForm.read?_append (payload ++ rest) hlength
  have hsplit : Bytes.split? payload.length (payload ++ rest) = some (payload, rest) :=
    Bytes.split?_eq_some_iff.mpr ⟨rfl, rfl⟩
  have hpayload : (UInt64.ofNat payload.length).toNat = payload.length := by
    rw [UInt64.toNat_ofNat', Nat.mod_eq_of_lt hword]
  simp only [List.cons_append, List.append_assoc, readUnmasked?, hkind, hread, hpayload,
    Option.bind_eq_bind, Option.bind_some, ← hform, List.drop_left, hsplit, hfinal, ne_eq,
    not_false_eq_true, decide_true]

/-! ## Frames that were read -/

/-- What holds of every frame that is taken: a control frame is short, and the code of a close frame
may be sent. -/
structure Sound (frame : Frame) : Prop where
  short : frame.opcode.isControl = true → frame.payload.length ≤ 125
  maySend : ∀ code ∈ frame.closeCode?, code.MaySend

theorem Header.length_of_body? {header : Header} {received payload rest : Bytes} {key : MaskKey}
    (h : header.body? received = some (key, payload, rest)) :
    payload.length = header.length.toNat := by
  simp only [Header.body?, Option.bind_eq_bind, Option.bind_eq_some_iff, Prod.exists] at h
  obtain ⟨_, _, _, _, _, _, _, _, front, after, hs, heq⟩ := h
  obtain ⟨-, hlength⟩ := Bytes.split?_eq_some_iff.mp hs
  obtain ⟨-, rfl, -⟩ : _ ∧ front = payload ∧ _ := by simpa using heq
  exact hlength

theorem Header.short_of_violation? {limit : UInt64} {header : Header}
    (h : header.violation? limit = none) (hc : header.opcode.isControl = true) :
    header.length.toNat ≤ 125 := by
  simp only [Header.violation?] at h
  by_cases hlong : maxControlPayload < header.length
  · simp [hc, hlong] at h
    split at h <;> simp at h
  · rw [UInt64.not_lt, UInt64.le_iff_toNat_le] at hlong
    exact hlong

/-- **Whatever frame is taken from the bytes received is sound.** -/
theorem sound_of_readMasked {limit : UInt64} {received rest : Bytes} {frame : Frame}
    (h : readMasked limit received = .frame frame rest) : frame.Sound := by
  simp only [readMasked] at h
  split at h
  · simp at h
  · simp at h
  next header hheader =>
  split at h
  · simp at h
  next hviolation =>
  split at h
  · simp at h
  split at h
  · simp at h
  split at h
  · simp at h
  next key payload rest' hbody =>
  -- the key and the payload were taken, so all that is left to check is the code of a close frame
  have hshort : header.opcode.isControl = true → (key.apply payload).length ≤ 125 := by
    intro hc
    rw [MaskKey.length_apply, Header.length_of_body? hbody]
    exact Header.short_of_violation? hviolation hc
  split at h
  · next code hcode =>
    split at h
    · next hmay =>
      obtain ⟨rfl, -⟩ := Reading.frame.inj h
      refine ⟨hshort, ?_⟩
      intro other ho
      obtain rfl : code = other := Option.some.inj (hcode.symm.trans ho)
      exact hmay
    · simp at h
  · next hnone =>
    obtain ⟨rfl, -⟩ := Reading.frame.inj h
    refine ⟨hshort, ?_⟩
    intro code hcode
    rw [hnone] at hcode
    cases hcode

end Frame

end ServiceDirectory.WebSocket

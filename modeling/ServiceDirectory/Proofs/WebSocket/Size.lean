import ServiceDirectory.Config
import ServiceDirectory.Proofs.WebSocket.Grammar

/-!
# The size of a frame

The size of a frame is summed in words of 64 bits: the bytes before the mask key, the four of the key,
and a length that the client tells (`Header.frameSize`).  `Header.extent` is the sum itself.  All that
bounds the length is the limit on messages, and the settings admit every limit.

The two sums agree for all frames exactly where the limit leaves room below 2^64 for the longest header.
A larger limit admits a frame whose size wraps around.  Then the size is small, the frame passes for
complete, and its parts lie outside the bytes received (`readMasked_of_wrapped_size`).  A frame of
2^63 bytes or more goes out of bounds even without that, since no buffer can hold it
(`readMasked_eq_outOfBounds_iff`).
-/

namespace ServiceDirectory.WebSocket.Frame

variable {limit : UInt64} {received : Bytes} {header : Header}

/-! ## The sum and the word -/

/-- How many bytes the whole frame has, as a number. -/
def Header.extent (header : Header) : Nat := header.size.toNat + 4 + header.length.toNat

theorem Header.toNat_frameSize_eq_mod (header : Header) :
    header.frameSize.toNat = header.extent % 2 ^ 64 := by
  have h4 : (4 : UInt64).toNat = 4 := rfl
  rw [frameSize, UInt64.toNat_add, UInt64.toNat_add, h4, extent, Nat.mod_add_mod]

theorem Header.toNat_frameSize_eq_iff :
    header.frameSize.toNat = header.extent ↔ header.extent < 2 ^ 64 := by
  rw [toNat_frameSize_eq_mod, Nat.mod_eq_iff_lt (by decide)]

theorem Header.exceedsBuffers_iff : header.ExceedsBuffers ↔ 2 ^ 63 ≤ header.extent % 2 ^ 64 := by
  have hbound : bufferBound.toNat = 2 ^ 63 := by decide
  rw [ExceedsBuffers, UInt64.le_iff_toNat_le, hbound, toNat_frameSize_eq_mod]

/-- The key and the payload are there exactly when all bytes of the frame are. -/
theorem Header.isSome_body?_iff : (header.body? received).isSome ↔ header.extent ≤ received.length := by
  constructor
  · intro h
    obtain ⟨⟨key, payload, rest⟩, hbody⟩ := Option.isSome_iff_exists.mp h
    obtain ⟨front, hfront, hpayload, rfl⟩ := body?_eq_some_iff.mp hbody
    have hkey : key.toBytes.length = 4 := rfl
    simp only [extent, List.length_append, hfront, hpayload, hkey]
    omega
  · intro h
    obtain ⟨key, payload, rest, hbody⟩ := exists_body? h
    rw [hbody]
    rfl

/-! ## Frames that are announced -/

/-- The bytes received begin with a header that may be announced. -/
structure Announces (limit : UInt64) (received : Bytes) (header : Header) : Prop where
  read : Header.read received = .ok (some header)
  admitted : header.violation? limit = none

namespace Announces

theorem extent_le (h : Announces limit received header) : header.extent ≤ limit.toNat + 14 := by
  have hsize := Header.size_le_of_read h.read
  have hlength := UInt64.le_iff_toNat_le.mp (Header.length_le_of_violation? h.admitted)
  unfold Header.extent
  omega

/-- The bytes that were read for the length are there. -/
theorem size_le (h : Announces limit received header) : header.size.toNat ≤ received.length := by
  obtain ⟨first, form, more, -, -, hsize, rfl⟩ := Header.exists_of_read h.read
  rw [hsize, List.length_append, List.length_cons, LengthForm.length_write]
  omega

/-- A limit admits a text message of every length up to it. -/
theorem text {length : UInt64} (h : length ≤ limit) :
    Announces limit (0x81 :: LengthForm.inEightBytes.write 0x80 length.toNat)
      (.told true .text .inEightBytes length.toNat) := by
  have hopens : Opens 0x81 true .text := ⟨by decide, by decide, by decide⟩
  have hholds : LengthForm.inEightBytes.Holds length.toNat := length.toNat_lt
  have hread := Header.read_write hopens hholds []
  rw [List.append_nil] at hread
  refine ⟨hread, Header.violation?_eq_none_iff.mpr ?_⟩
  rw [Header.toNat_length_told true .text hholds]
  exact ⟨fun _ => rfl, nofun, nofun, UInt64.le_iff_toNat_le.mp h⟩

end Announces

theorem Header.extent_text (length : UInt64) :
    (told true .text .inEightBytes length.toNat).extent = length.toNat + 14 := by
  have hholds : LengthForm.inEightBytes.Holds length.toNat := length.toNat_lt
  have hextension : LengthForm.inEightBytes.extension = 8 := rfl
  rw [extent, toNat_size_told, toNat_length_told true .text hholds, hextension]
  omega

/-! ## Out of bounds -/

theorem judge_ne_outOfBounds (taken : Frame) (rest : Bytes) : judge taken rest ≠ .outOfBounds := by
  unfold judge
  split
  · split <;> exact nofun
  · exact nofun

/-- What reading comes to once a header was announced. -/
theorem Announces.readMasked_eq (h : Announces limit received header) :
    readMasked limit received =
      if header.ExceedsBuffers then .outOfBounds
      else if header.frameSize.toNat ≤ received.length then
        match header.body? received with
        | none => .outOfBounds
        | some (key, payload, rest) =>
          judge { final := header.final, opcode := header.opcode, payload := key.apply payload } rest
      else .incomplete := by
  simp only [readMasked, h.read, h.admitted, Bytes.hasAtLeast_iff, ite_not]
  rfl

theorem exists_announces_of_outOfBounds (h : readMasked limit received = .outOfBounds) :
    ∃ header, Announces limit received header := by
  cases hr : Header.read received with
  | error cause => simp [readMasked, hr] at h
  | ok header? =>
    cases header? with
    | none => simp [readMasked, hr] at h
    | some header =>
      cases hv : header.violation? limit with
      | some cause => simp [readMasked, hr, hv] at h
      | none => exact ⟨header, hr, hv⟩

/-- **A frame that is announced goes out of bounds exactly if it has 2^63 bytes or more.**  Where its size
wraps around, that does not show before as many bytes are there as the wrapped size says. -/
theorem Announces.outOfBounds_iff (h : Announces limit received header)
    (hbuffer : received.length < 2 ^ 63) :
    readMasked limit received = .outOfBounds ↔
      2 ^ 63 ≤ header.extent ∧
        (2 ^ 64 ≤ header.extent → header.extent ≤ received.length + 2 ^ 64) := by
  have hmost := h.extent_le
  have hlimit := limit.toNat_lt
  have hword := header.toNat_frameSize_eq_mod
  rw [h.readMasked_eq]
  by_cases hx : header.ExceedsBuffers
  · -- a sum that wrapped around is less than 14
    simp only [if_pos hx, true_iff]
    rw [Header.exceedsBuffers_iff] at hx
    omega
  rw [if_neg hx]
  rw [Header.exceedsBuffers_iff] at hx
  by_cases hthere : header.frameSize.toNat ≤ received.length
  · rw [if_pos hthere]
    cases hbody : header.body? received with
    | none =>
      -- the frame is larger than its size says, so the sum wrapped around
      have hmissing : ¬ header.extent ≤ received.length := by
        rw [← Header.isSome_body?_iff, hbody]
        exact Bool.false_ne_true
      simp only [true_iff]
      omega
    | some parts =>
      have hall : header.extent ≤ received.length := by
        rw [← Header.isSome_body?_iff, hbody]
        rfl
      simp only [judge_ne_outOfBounds, false_iff]
      omega
  · rw [if_neg hthere]
    simp only [reduceCtorEq, false_iff]
    omega

theorem readMasked_eq_outOfBounds_iff (hbuffer : received.length < 2 ^ 63) :
    readMasked limit received = .outOfBounds ↔
      ∃ header, Announces limit received header ∧ 2 ^ 63 ≤ header.extent ∧
        (2 ^ 64 ≤ header.extent → header.extent ≤ received.length + 2 ^ 64) := by
  constructor
  · intro h
    obtain ⟨header, hannounces⟩ := exists_announces_of_outOfBounds h
    exact ⟨header, hannounces, (hannounces.outOfBounds_iff hbuffer).mp h⟩
  · rintro ⟨header, hannounces, hlong⟩
    exact (hannounces.outOfBounds_iff hbuffer).mpr hlong

/-- No buffer makes reading go out of bounds exactly where no frame of 2^63 bytes may be announced. -/
theorem forall_ne_outOfBounds_iff :
    (∀ received, received.length < 2 ^ 63 → readMasked limit received ≠ .outOfBounds) ↔
      limit.toNat + 14 < 2 ^ 63 := by
  constructor
  · intro hall
    by_contra hlimit
    -- a text message with which the frame has just as many bytes as no buffer can hold
    have hlength : (0x7FFFFFFFFFFFFFF2 : UInt64).toNat = 2 ^ 63 - 14 := by decide
    have hadmitted : (0x7FFFFFFFFFFFFFF2 : UInt64) ≤ limit := by
      rw [UInt64.le_iff_toNat_le]
      omega
    have hannounces := Announces.text hadmitted
    have hextent := Header.extent_text 0x7FFFFFFFFFFFFFF2
    have hbuffer : ((0x81 : UInt8) :: LengthForm.inEightBytes.write 0x80
        (0x7FFFFFFFFFFFFFF2 : UInt64).toNat).length < 2 ^ 63 := by
      rw [List.length_cons, LengthForm.length_write]
      decide
    refine hall _ hbuffer ((readMasked_eq_outOfBounds_iff hbuffer).mpr ⟨_, hannounces, ?_, ?_⟩)
    all_goals omega
  · intro hlimit received _ h
    have hle := le_of_outOfBounds h
    omega

/-- **A limit keeps the size of every frame exact, and all parts of a complete frame within the bytes
received, exactly where it leaves room for the longest header.**  The settings admit any limit. -/
theorem frameSize_exact_iff (limit : UInt64) :
    ((∀ received header, Announces limit received header →
      -- the word is the sum, so it is no less than the length of the payload
      header.frameSize.toNat = header.extent ∧ header.length ≤ header.frameSize ∧
      -- the length was read from bytes that are there
      header.size.toNat ≤ received.length ∧
      -- the key and the payload are there when as many bytes are there as the word says
      (header.frameSize.toNat ≤ received.length ↔ (header.body? received).isSome)) ↔
        limit.toNat + 14 < 2 ^ 64) ∧
    -- what is wrong with the other limits, and with those that admit a frame larger than any buffer
    (∀ received, received.length < 2 ^ 63 → (readMasked limit received = .outOfBounds ↔
      ∃ header, Announces limit received header ∧ 2 ^ 63 ≤ header.extent ∧
        (2 ^ 64 ≤ header.extent → header.extent ≤ received.length + 2 ^ 64))) ∧
    ((∀ received, received.length < 2 ^ 63 → readMasked limit received ≠ .outOfBounds) ↔
      limit.toNat + 14 < 2 ^ 63) ∧
    -- a limit that is asked for is raised to the largest control frame, and never lowered
    ∀ config : Config, (config.withMaxMessageSize limit).maxMessageSize.toNat = max limit.toNat 125 := by
  refine ⟨⟨fun hall => ?_, fun hlimit received header h => ?_⟩, fun received hbuffer => ?_,
    forall_ne_outOfBounds_iff, fun config => ?_⟩
  · have hexact := (hall _ _ (Announces.text (UInt64.le_refl limit))).1
    rw [Header.toNat_frameSize_eq_iff, Header.extent_text] at hexact
    exact hexact
  · have hexact : header.frameSize.toNat = header.extent :=
      Header.toNat_frameSize hlimit h.read h.admitted
    refine ⟨hexact, ?_, h.size_le, ?_⟩
    · rw [UInt64.le_iff_toNat_le, hexact]
      exact Nat.le_add_left _ _
    · rw [hexact, Header.isSome_body?_iff]
  · exact readMasked_eq_outOfBounds_iff hbuffer
  · exact Config.toNat_maxMessageSize config limit

/-- With the largest limit of all, a header that announces 2^64 - 1 bytes goes with four bytes of a key
for a frame of 13 bytes that is complete. -/
theorem readMasked_of_wrapped_size :
    let limit := (({} : Config).withMaxMessageSize 0xFFFFFFFFFFFFFFFF).maxMessageSize
    let received : Bytes :=
      [0x81, 0xFF, 0xFF, 0xFF, 0xFF, 0xFF, 0xFF, 0xFF, 0xFF, 0xFF, 0, 0, 0, 0]
    limit = 0xFFFFFFFFFFFFFFFF ∧
      (∃ header, Announces limit received header ∧ header.frameSize = 13 ∧
        header.extent = 2 ^ 64 + 13 ∧ header.frameSize < header.length) ∧
      readMasked limit received = .outOfBounds := by
  intro limit received
  refine ⟨by decide, ⟨.told true .text .inEightBytes (2 ^ 64 - 1), ⟨?_, ?_⟩, ?_, ?_, ?_⟩, ?_⟩
  all_goals decide

end ServiceDirectory.WebSocket.Frame

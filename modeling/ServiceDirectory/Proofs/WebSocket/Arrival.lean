import Mathlib.Algebra.Ring.Nat
import Mathlib.Tactic.Common
import ServiceDirectory.WebSocket.Stream

/-!
# Frames while bytes arrive

A frame is judged on the bytes received so far.  Whatever that judgement is, other than that more
bytes are needed, later bytes do not change it: they are added to the bytes not taken and nothing else
happens (`readMasked_append`).

The limit on messages has to leave room for the longest header; otherwise the size of a frame wraps
around and says nothing about the bytes that are needed.
-/

namespace ServiceDirectory

/-! ## Pieces of known length -/

theorem Bytes.split?_append {n : Nat} {bs front rest : Bytes} (more : Bytes)
    (h : Bytes.split? n bs = some (front, rest)) :
    Bytes.split? n (bs ++ more) = some (front, rest ++ more) := by
  rw [Bytes.split?_eq_some_iff] at h ⊢
  obtain ⟨rfl, hn⟩ := h
  exact ⟨List.append_assoc front rest more, hn⟩

theorem Bytes.exists_split? {n : Nat} {bs : Bytes} (h : n ≤ bs.length) :
    ∃ front rest, Bytes.split? n bs = some (front, rest) := by
  refine ⟨bs.take n, bs.drop n, ?_⟩
  rw [Bytes.split?_eq_some_iff]
  exact ⟨(List.take_append_drop n bs).symm, by rw [List.length_take]; omega⟩

namespace WebSocket

/-- A length that is not complete has fewer than eight bytes. -/
theorem LengthForm.length_lt_of_read? {low : UInt8} {after : Bytes}
    (h : LengthForm.read? low after = none) : after.length < 8 := by
  by_contra hlong
  have hsplit : ∀ n ≤ 8, Bytes.split? n after ≠ none := by
    intro n hn hnone
    obtain ⟨front, rest, hs⟩ := Bytes.exists_split? (show n ≤ after.length by omega)
    exact nomatch hnone.symm.trans hs
  unfold LengthForm.read? at h
  cases hform : LengthForm.announcedBy low with
  | inSecondByte => simp only [hform, reduceCtorEq] at h
  | inTwoBytes =>
    simp only [hform, Option.map_eq_none_iff] at h
    exact hsplit _ (by decide) h
  | inEightBytes =>
    simp only [hform, Option.map_eq_none_iff] at h
    exact hsplit _ (by decide) h

theorem LengthForm.read?_append {low : UInt8} {after : Bytes} {length : UInt64} (more : Bytes)
    (h : LengthForm.read? low after = some length) :
    LengthForm.read? low (after ++ more) = some length := by
  simp only [LengthForm.read?] at h ⊢
  split at h
  · exact h
  · rw [Option.map_eq_some_iff] at h
    obtain ⟨⟨digits, rest⟩, hs, hl⟩ := h
    rw [Bytes.split?_append more hs, Option.map_some]
    exact congrArg some hl

namespace Frame

/-! ## Headers -/

theorem Header.read_append_of_error {received : Bytes} {cause : Violation} (more : Bytes)
    (h : Header.read received = .error cause) : Header.read (received ++ more) = .error cause := by
  match received with
  | [] | [_] => simp [Header.read] at h
  | first :: second :: after =>
    simp only [Header.read, List.cons_append] at h ⊢
    split at h
    · next hr => rw [if_pos hr]; exact h
    · next hr =>
      rw [if_neg hr]
      split at h
      · exact h
      · split at h
        · next hm => rw [if_pos hm]; exact h
        · simp at h

theorem Header.read_append_of_some {received : Bytes} {header : Header} (more : Bytes)
    (h : Header.read received = .ok (some header)) :
    Header.read (received ++ more) = .ok (some header) := by
  match received with
  | [] | [_] => simp [Header.read] at h
  | first :: second :: after =>
    simp only [Header.read, List.cons_append] at h ⊢
    split at h
    · simp at h
    · next hr =>
      rw [if_neg hr]
      split at h
      · simp at h
      · split at h
        · simp at h
        · next hm =>
          rw [if_neg hm]
          simp only [Except.ok.injEq, Option.map_eq_some_iff] at h ⊢
          obtain ⟨length, hl, hh⟩ := h
          exact ⟨length, LengthForm.read?_append more hl, hh⟩

/-- A header that is not complete has fewer than ten bytes. -/
theorem Header.length_lt_of_read {received : Bytes} (h : Header.read received = .ok none) :
    received.length < 10 := by
  match received with
  | [] | [_] => simp
  | first :: second :: after =>
    simp only [Header.read] at h
    split at h
    · cases h
    split at h
    · cases h
    split at h
    · cases h
    have hafter := LengthForm.length_lt_of_read? (Option.map_eq_none_iff.mp (Except.ok.inj h))
    simp only [List.length_cons]
    omega

/-- A header takes at most ten bytes before the mask key. -/
theorem Header.size_le_of_read {received : Bytes} {header : Header}
    (h : Header.read received = .ok (some header)) : header.size.toNat ≤ 10 := by
  match received with
  | [] | [_] => simp [Header.read] at h
  | first :: second :: after =>
    simp only [Header.read] at h
    split at h
    · simp at h
    · split at h
      · simp at h
      · split at h
        · simp at h
        · simp only [Except.ok.injEq, Option.map_eq_some_iff] at h
          obtain ⟨length, -, rfl⟩ := h
          show (2 + UInt64.ofNat (LengthForm.announcedBy (second &&& 0x7F)).extension).toNat ≤ 10
          cases LengthForm.announcedBy (second &&& 0x7F) <;> decide

theorem Header.length_le_of_violation? {limit : UInt64} {header : Header}
    (h : header.violation? limit = none) : header.length ≤ limit := by
  simp only [Header.violation?] at h
  repeat' split at h
  all_goals first
    | exact UInt64.not_lt.mp (by assumption)
    | simp at h

/-- **The size of a frame does not wrap around** where the limit on messages leaves room for the
longest header. -/
theorem Header.toNat_frameSize {limit : UInt64} {received : Bytes} {header : Header}
    (hlimit : limit.toNat + 14 < 2 ^ 64) (hr : Header.read received = .ok (some header))
    (hv : header.violation? limit = none) :
    header.frameSize.toNat = header.size.toNat + 4 + header.length.toNat := by
  have hsize := Header.size_le_of_read hr
  have hlength := UInt64.le_iff_toNat_le.mp (Header.length_le_of_violation? hv)
  have h4 : (4 : UInt64).toNat = 4 := rfl
  rw [Header.frameSize, UInt64.toNat_add, UInt64.toNat_add, h4]
  omega

/-! ## What follows a header -/

theorem Header.body?_append {header : Header} {received payload rest : Bytes} {key : MaskKey}
    (more : Bytes) (h : header.body? received = some (key, payload, rest)) :
    header.body? (received ++ more) = some (key, payload, rest ++ more) := by
  simp only [Header.body?, Option.bind_eq_bind, Option.bind_eq_some_iff, Prod.exists] at h ⊢
  obtain ⟨front, atKey, h₁, digits, atPayload, h₂, key', h₃, payload', rest', h₄, heq⟩ := h
  cases heq
  exact ⟨front, _, Bytes.split?_append more h₁, digits, _, Bytes.split?_append more h₂, key, h₃,
    payload, _, Bytes.split?_append more h₄, rfl⟩

/-- The key and the payload are there once as many bytes are as the frame has. -/
theorem Header.exists_body? {header : Header} {received : Bytes}
    (h : header.size.toNat + 4 + header.length.toNat ≤ received.length) :
    ∃ key payload rest, header.body? received = some (key, payload, rest) := by
  -- header, key and payload are cut off in turn, and each cut leaves enough for the next
  obtain ⟨front, atKey, h₁⟩ := Bytes.exists_split? (show header.size.toNat ≤ received.length by omega)
  obtain ⟨rfl, hfront⟩ := Bytes.split?_eq_some_iff.mp h₁
  rw [List.length_append] at h
  obtain ⟨digits, atPayload, h₂⟩ := Bytes.exists_split? (show 4 ≤ atKey.length by omega)
  obtain ⟨rfl, hdigits⟩ := Bytes.split?_eq_some_iff.mp h₂
  rw [List.length_append] at h
  obtain ⟨payload, rest, h₃⟩ :=
    Bytes.exists_split? (show header.length.toNat ≤ atPayload.length by omega)
  match digits, hdigits with
  | [k0, k1, k2, k3], _ =>
    refine ⟨⟨k0, k1, k2, k3⟩, payload, rest, ?_⟩
    simp only [Header.body?, Option.bind_eq_bind, Option.bind_eq_some_iff, Prod.exists]
    exact ⟨front, _, h₁, _, _, h₂, _, rfl, payload, rest, h₃, rfl⟩

/-! ## Readings -/

/-- A reading when more bytes have arrived than it took notice of. -/
def Reading.extend (more : Bytes) : Reading → Reading
  | incomplete => incomplete
  | frame read rest => frame read (rest ++ more)
  | violation cause rest => violation cause (rest ++ more)
  | outOfBounds => outOfBounds

/-- The key and the payload of the frame are all there. -/
theorem readMasked_append_of_body {limit : UInt64} {received payload rest : Bytes}
    {header : Header} {key : MaskKey} (more : Bytes)
    (hr : Header.read received = .ok (some header)) (hv : header.violation? limit = none)
    (hx : ¬ header.ExceedsBuffers) (hlen : header.frameSize.toNat ≤ received.length)
    (hb : header.body? received = some (key, payload, rest)) :
    readMasked limit (received ++ more) = (readMasked limit received).extend more := by
  have hlen' : header.frameSize.toNat ≤ (received ++ more).length := by
    rw [List.length_append]
    omega
  simp only [readMasked, hr, Header.read_append_of_some more hr, hv, if_neg hx, hb,
    Header.body?_append more hb, Bytes.hasAtLeast_iff, hlen, hlen', not_true, if_false]
  split
  · split <;> rfl
  · rfl

/-- **Later bytes do not change a reading.** -/
theorem readMasked_append {limit : UInt64} {received : Bytes} {reading : Reading} (more : Bytes)
    (hlimit : limit.toNat + 14 < 2 ^ 64) (h : readMasked limit received = reading)
    (hn : reading ≠ .incomplete) :
    readMasked limit (received ++ more) = reading.extend more := by
  subst h
  -- every check looks at bytes that are there already
  cases hr : Header.read received with
  | error cause =>
    simp only [readMasked, hr, Header.read_append_of_error more hr, Reading.extend]
  | ok header =>
    cases header with
    | none => simp [readMasked, hr] at hn
    | some header =>
      have hr' := Header.read_append_of_some more hr
      cases hv : header.violation? limit with
      | some cause => simp only [readMasked, hr, hr', hv, Reading.extend]
      | none =>
        by_cases hx : header.ExceedsBuffers
        · simp only [readMasked, hr, hr', hv, if_pos hx, Reading.extend]
        · have hsize := Header.toNat_frameSize hlimit hr hv
          have hlen : header.frameSize.toNat ≤ received.length := by
            by_contra hlen
            simp [readMasked, hr, hv, hx, hlen] at hn
          -- the size is exact, so the key and the payload are all there
          obtain ⟨key, payload, rest, hb⟩ := Header.exists_body? (hsize ▸ hlen)
          exact readMasked_append_of_body more hr hv hx hlen hb

/-- Only a limit that leaves no room for the longest header lets a frame be out of bounds. -/
theorem le_of_outOfBounds {limit : UInt64} {received : Bytes}
    (h : readMasked limit received = .outOfBounds) : 2 ^ 63 ≤ limit.toNat + 14 := by
  by_contra hlimit
  cases hr : Header.read received with
  | error cause => simp [readMasked, hr] at h
  | ok header =>
    cases header with
    | none => simp [readMasked, hr] at h
    | some header =>
      cases hv : header.violation? limit with
      | some cause => simp [readMasked, hr, hv] at h
      | none =>
        have hsize := Header.toNat_frameSize (by omega) hr hv
        have hten := Header.size_le_of_read hr
        have hlength := UInt64.le_iff_toNat_le.mp (Header.length_le_of_violation? hv)
        have hx : ¬ header.ExceedsBuffers := by
          intro hx
          have hbound : bufferBound.toNat ≤ header.frameSize.toNat := UInt64.le_iff_toNat_le.mp hx
          have hvalue : bufferBound.toNat = 2 ^ 63 := by decide
          omega
        by_cases hlen : header.frameSize.toNat ≤ received.length
        · obtain ⟨key, payload, rest, hb⟩ := Header.exists_body? (hsize ▸ hlen)
          simp only [readMasked, hr, hv, if_neg hx, hb, Bytes.hasAtLeast_iff, hlen, not_true,
            if_false] at h
          split at h
          · split at h <;> cases h
          · cases h
        · simp [readMasked, hr, hv, hx, hlen] at h

/-- **A frame that is not complete is short**: of the longest one that may be announced, at least one byte
is missing. -/
theorem length_lt_of_incomplete {limit : UInt64} {received : Bytes}
    (hlimit : limit.toNat + 14 < 2 ^ 64) (h : readMasked limit received = .incomplete) :
    received.length < 14 + limit.toNat := by
  cases hr : Header.read received with
  | error cause => simp [readMasked, hr] at h
  | ok header =>
    cases header with
    | none =>
      have hten := Header.length_lt_of_read hr
      omega
    | some header =>
      cases hv : header.violation? limit with
      | some cause => simp [readMasked, hr, hv] at h
      | none =>
        have hsize := Header.toNat_frameSize hlimit hr hv
        have hten := Header.size_le_of_read hr
        have hlength := UInt64.le_iff_toNat_le.mp (Header.length_le_of_violation? hv)
        by_contra hlong
        -- all of the frame is there, so reading it gives something else
        have hlen : header.frameSize.toNat ≤ received.length := by omega
        obtain ⟨key, payload, rest, hb⟩ := Header.exists_body? (hsize ▸ hlen)
        simp only [readMasked, hr, hv, hb, Bytes.hasAtLeast_iff, hlen, not_true, if_false] at h
        split at h
        · cases h
        split at h
        · split at h <;> cases h
        · cases h

/-! ## Streams of frames -/

theorem readAll_of_incomplete {limit : UInt64} {received : Bytes}
    (h : readMasked limit received = .incomplete) :
    readAll limit received = { stop := .incomplete, rest := received } := by
  rw [readAll]
  split <;> simp_all

theorem readAll_of_outOfBounds {limit : UInt64} {received : Bytes}
    (h : readMasked limit received = .outOfBounds) :
    readAll limit received = { stop := .outOfBounds, rest := received } := by
  rw [readAll]
  split <;> simp_all

theorem readAll_of_violation {limit : UInt64} {received rest : Bytes} {cause : Violation}
    (h : readMasked limit received = .violation cause rest) :
    readAll limit received = { stop := .violation cause, rest } := by
  rw [readAll]
  split <;> simp_all

theorem readAll_of_frame {limit : UInt64} {received rest : Bytes} {frame : Frame}
    (h : readMasked limit received = .frame frame rest) :
    readAll limit received =
      { readAll limit rest with frames := frame :: (readAll limit rest).frames } := by
  rw [readAll]
  split <;> simp_all

end Frame

end WebSocket

end ServiceDirectory

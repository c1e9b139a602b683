import ServiceDirectory.Proofs.WebSocket.Grammar

/-!
# Frames read back

A server writes its frames into one buffer, one behind the other (`Frame.appendEach`).  A client takes
them from the front of what it received until the next one is not complete (`Frame.readEach`).  Every
frame tells in its header where it ends, in as few bytes as can be, so the client gets exactly the
messages that were written, and no two lists of messages come to the same bytes (`decoded_uniquely`).

A frame that is cut short is never taken for a shorter one.  That rests on two facts: a whole frame is
read to its last byte, and what was read stays as it is when more bytes arrive
(`readUnmasked?_append`).
-/

namespace ServiceDirectory.WebSocket

/-! ## Length forms -/

namespace LengthForm

/-- A form has room for a length, and no form that takes fewer bytes has. -/
def IsLeast (form : LengthForm) (n : Nat) : Prop :=
  form.Holds n ∧ ∀ other : LengthForm, other.Holds n → form.extension ≤ other.extension

theorem isLeast_shortest {n : Nat} (hn : n < 2 ^ 64) : (shortest n).IsLeast n := by
  unfold shortest
  split
  next hone => exact ⟨hone, fun other _ => Nat.zero_le _⟩
  next hone =>
  split
  next htwo =>
    refine ⟨Nat.lt_succ_of_le htwo, fun other hother => ?_⟩
    cases other with
    | inSecondByte => exact (hone hother).elim
    | inTwoBytes => exact Nat.le_refl _
    | inEightBytes => decide
  next htwo =>
    refine ⟨hn, fun other hother => ?_⟩
    cases other with
    | inSecondByte => exact (hone hother).elim
    | inTwoBytes => exact (htwo (Nat.le_of_lt_succ hother)).elim
    | inEightBytes => exact Nat.le_refl _

/-- The bytes of a length that is told are all there. -/
theorem extension_le_of_read? {low : UInt8} {after : Bytes} {length : UInt64}
    (h : read? low after = some length) : (announcedBy low).extension ≤ after.length := by
  simp only [read?] at h
  split at h
  next hform => rw [hform]; exact Nat.zero_le _
  next form _ =>
    obtain ⟨⟨digits, rest⟩, hsplit, -⟩ := Option.map_eq_some_iff.mp h
    obtain ⟨rfl, hdigits⟩ := Bytes.split?_eq_some_iff.mp hsplit
    rw [List.length_append, hdigits]
    exact Nat.le_add_right _ _

end LengthForm

namespace Frame

/-! ## One frame -/

/-- What was read stays as it is when more bytes arrive. -/
theorem readUnmasked?_append {received rest : Bytes} {frame : Frame} (more : Bytes)
    (h : readUnmasked? received = some (frame, rest)) :
    readUnmasked? (received ++ more) = some (frame, rest ++ more) := by
  match received with
  | [] | [_] => simp [readUnmasked?] at h
  | first :: second :: after =>
    simp only [readUnmasked?, List.cons_append, Option.bind_eq_bind, Option.bind_eq_some_iff,
      Prod.exists] at h ⊢
    obtain ⟨opcode, hopcode, length, hlength, payload, left, hsplit, heq⟩ := h
    cases heq
    refine ⟨opcode, hopcode, length, LengthForm.read?_append more hlength, payload, _, ?_, rfl⟩
    rw [List.drop_append_of_le_length (LengthForm.extension_le_of_read? hlength)]
    exact Bytes.split?_append more hsplit

/-- After a frame fewer bytes are left. -/
theorem length_rest_of_readUnmasked? {received rest : Bytes} {frame : Frame}
    (h : readUnmasked? received = some (frame, rest)) : rest.length < received.length := by
  match received with
  | [] | [_] => simp [readUnmasked?] at h
  | first :: second :: after =>
    simp only [readUnmasked?, Option.bind_eq_bind, Option.bind_eq_some_iff, Prod.exists] at h
    obtain ⟨_, -, _, -, payload, left, hsplit, heq⟩ := h
    cases heq
    obtain ⟨hafter, -⟩ := Bytes.split?_eq_some_iff.mp hsplit
    have hlength := congrArg List.length hafter
    rw [List.length_drop, List.length_append] at hlength
    simp only [List.length_cons]
    omega

variable {opcode : Opcode} {payload front : Bytes}

/-- **A frame that is cut short is not complete.** -/
theorem readUnmasked?_of_front (hword : payload.length < 2 ^ 64)
    (hfront : front <+: write opcode payload) (hshort : front ≠ write opcode payload) :
    readUnmasked? front = none := by
  obtain ⟨more, hmore⟩ := hfront
  cases hread : readUnmasked? front with
  | none => rfl
  | some taken =>
    obtain ⟨frame, rest⟩ := taken
    -- what was read would stay read, so the whole frame would not be read to its last byte
    have hwhole := readUnmasked?_of_spells (spells_write opcode payload) hword []
    rw [List.append_nil, ← hmore, readUnmasked?_append more hread] at hwhole
    have hrest : rest ++ more = [] := congrArg Prod.snd (Option.some.inj hwhole)
    obtain ⟨-, rfl⟩ := List.append_eq_nil_iff.mp hrest
    rw [List.append_nil] at hmore
    exact (hshort hmore).elim

/-- The header of a frame that is written tells the length in the fewest bytes. -/
theorem exists_header_write (opcode : Opcode) (hword : payload.length < 2 ^ 64) :
    ∃ second digits, write opcode payload = finalByte opcode :: second :: digits ++ payload ∧
      second &&& 0x80 = 0 ∧
      digits.length = (LengthForm.announcedBy (second &&& 0x7F)).extension ∧
      (LengthForm.announcedBy (second &&& 0x7F)).IsLeast payload.length := by
  have hleast := LengthForm.isLeast_shortest hword
  obtain ⟨second, digits, hwrite, hmask, hform, hdigits, -⟩ :=
    LengthForm.read?_write (.inl rfl) (.inl hleast.1)
  refine ⟨second, digits, by rw [write, hwrite], hmask, ?_, ?_⟩
  · rw [hform, hdigits]
  · rw [hform]
    exact hleast

/-! ## Frame after frame -/

/-- A frame for each of the messages, one behind the other, behind what the buffer holds already. -/
def appendEach (buffer : Bytes) (messages : List (Opcode × Bytes)) : Bytes :=
  messages.foldl (fun buffer message => buffer ++ write message.1 message.2) buffer

/-- The final frame that carries a message. -/
def ofMessage (message : Opcode × Bytes) : Frame :=
  { final := true, opcode := message.1, payload := message.2 }

/-- The frames at the front of the bytes received, up to one that is not complete, and the bytes from
there on. -/
def readEach (received : Bytes) : List Frame × Bytes :=
  match _h : readUnmasked? received with
  | none => ([], received)
  | some (frame, rest) =>
    let (frames, left) := readEach rest
    (frame :: frames, left)
termination_by received.length
decreasing_by exact length_rest_of_readUnmasked? _h

theorem readEach_of_none {received : Bytes} (h : readUnmasked? received = none) :
    readEach received = ([], received) := by
  rw [readEach]
  split <;> simp_all

theorem readEach_of_some {received rest : Bytes} {frame : Frame}
    (h : readUnmasked? received = some (frame, rest)) :
    readEach received = (frame :: (readEach rest).1, (readEach rest).2) := by
  rw [readEach]
  split <;> simp_all

theorem appendEach_eq (buffer : Bytes) (messages : List (Opcode × Bytes)) :
    appendEach buffer messages =
      buffer ++ messages.flatMap fun message => write message.1 message.2 := by
  rw [appendEach, List.foldl_append_eq_append, List.flatMap]

theorem ofMessage_inj {message other : Opcode × Bytes} (h : ofMessage message = ofMessage other) :
    message = other :=
  Prod.ext (congrArg Frame.opcode h) (congrArg Frame.payload h)

/-- **What was written is read back**, and what stands behind it is left when it is no complete frame. -/
theorem readEach_append {messages : List (Opcode × Bytes)}
    (hword : ∀ message ∈ messages, message.2.length < 2 ^ 64) {left : Bytes}
    (hleft : readUnmasked? left = none) :
    readEach (appendEach [] messages ++ left) = (messages.map ofMessage, left) := by
  rw [appendEach_eq, List.nil_append]
  induction messages with
  | nil => exact readEach_of_none hleft
  | cons message messages ih =>
    have hread := readUnmasked?_of_spells (spells_write message.1 message.2)
      (hword message List.mem_cons_self)
    rw [List.flatMap_cons, List.append_assoc, readEach_of_some (hread _),
      ih fun other ho => hword other (List.mem_cons_of_mem _ ho)]
    rfl

theorem readEach_appendEach {messages : List (Opcode × Bytes)}
    (hword : ∀ message ∈ messages, message.2.length < 2 ^ 64) :
    readEach (appendEach [] messages) = (messages.map ofMessage, []) := by
  have hread := readEach_append hword (show readUnmasked? [] = none from rfl)
  rwa [List.append_nil] at hread

theorem appendEach_inj {messages others : List (Opcode × Bytes)}
    (hword : ∀ message ∈ messages, message.2.length < 2 ^ 64)
    (hothers : ∀ message ∈ others, message.2.length < 2 ^ 64)
    (h : appendEach [] others = appendEach [] messages) : others = messages := by
  have hread := readEach_appendEach hothers
  rw [h, readEach_appendEach hword] at hread
  have hframes : messages.map ofMessage = others.map ofMessage := congrArg Prod.fst hread
  exact ((List.map_inj_right fun _ _ => ofMessage_inj).mp hframes).symm

/-- **A client gets exactly the messages that were written.** -/
theorem decoded_uniquely {messages : List (Opcode × Bytes)}
    (hshort : ∀ message ∈ messages, message.2.length < 2 ^ 63) :
    -- all frames are read back in their order, final, and nothing is left
    readEach (appendEach [] messages) = (messages.map ofMessage, []) ∧
    -- the header of each tells the length in the form with the fewest bytes
    (∀ message ∈ messages, ∃ second digits,
      write message.1 message.2 = finalByte message.1 :: second :: digits ++ message.2 ∧
        second &&& 0x80 = 0 ∧
        digits.length = (LengthForm.announcedBy (second &&& 0x7F)).extension ∧
        (LengthForm.announcedBy (second &&& 0x7F)).IsLeast message.2.length) ∧
    -- a frame that is cut short is not complete, and stays in the buffer behind the others
    (∀ opcode payload front, payload.length < 2 ^ 63 → front <+: write opcode payload →
      front ≠ write opcode payload →
        readUnmasked? front = none ∧
          readEach (appendEach [] messages ++ front) = (messages.map ofMessage, front)) ∧
    -- other messages come to other bytes
    ∀ others : List (Opcode × Bytes), (∀ message ∈ others, message.2.length < 2 ^ 63) →
      appendEach [] others = appendEach [] messages → others = messages := by
  have hword : ∀ n, n < 2 ^ 63 → n < 2 ^ 64 := fun n hn => Nat.lt_trans hn (by decide)
  have hwords := fun message hm => hword _ (hshort message hm)
  refine ⟨readEach_appendEach hwords, ?_, ?_, ?_⟩
  · intro message hm
    exact exists_header_write message.1 (hwords message hm)
  · intro opcode payload front hpayload hfront hcut
    have hnone := readUnmasked?_of_front (hword _ hpayload) hfront hcut
    exact ⟨hnone, readEach_append hwords hnone⟩
  · intro others hothers hsame
    exact appendEach_inj hwords (fun message hm => hword _ (hothers message hm)) hsame

/-- An empty close frame, and two messages whose lengths are the least that take two and eight bytes. -/
theorem decoded_of_border_lengths :
    let messages : List (Opcode × Bytes) :=
      [(.close, []), (.text, List.replicate 126 0x61), (.binary, List.replicate 65536 0x62)]
    (∀ message ∈ messages, message.2.length < 2 ^ 63) ∧
      readEach (appendEach [] messages) = (messages.map ofMessage, []) := by
  intro messages
  have hshort : ∀ message ∈ messages, message.2.length < 2 ^ 63 := by
    intro message hm
    simp only [messages, List.mem_cons, List.not_mem_nil, or_false] at hm
    rcases hm with rfl | rfl | rfl
    · decide
    · rw [List.length_replicate]
      decide
    · rw [List.length_replicate]
      decide
  exact ⟨hshort, (decoded_uniquely hshort).1⟩

end Frame

end ServiceDirectory.WebSocket

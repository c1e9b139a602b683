import ServiceDirectory.Proofs.WebSocket.Written

/-!
# The grammar of masked frames

Which bytes are a frame of a client is said here without a reader.  A first byte whose reserved bits are
clear tells the kind of the frame and whether it is final (`Frame.Opens`); the length follows with the
mask bit set, in any of the three forms that has room for it, then the mask key and the payload under it
(`Frame.SpellsMasked`).  What a header may announce is `Frame.Admits`, and a legal frame beyond that has
no close code but one that may be sent (`Frame.IsLegal`).

Reading takes exactly the legal frames from the front of a buffer (`readMasked_grammar`).  Whatever a
header may not announce is refused as soon as the length is complete, before any byte of the key or the
payload is there, and nothing is taken then; only a bad close code takes its frame with it.
-/

namespace ServiceDirectory.WebSocket

/-! ## Length fields -/

/-- A byte is its high bit and the number below it. -/
theorem flag_or_low_self (b : UInt8) : (b &&& 0x80) ||| (b &&& 0x7F) = b := by
  apply UInt8.toNat_inj.mp
  rw [UInt8.toNat_or, UInt8.toNat_and, UInt8.toNat_and, ← Nat.and_or_distrib_left]
  show b.toNat &&& (2 ^ 8 - 1) = b.toNat
  rw [Nat.and_two_pow_sub_one_eq_mod]
  exact Nat.mod_eq_of_lt b.toNat_lt

theorem flag_eq (b : UInt8) : b &&& 0x80 = 0 ∨ b &&& 0x80 = 0x80 := by
  have hbytes : ∀ m : Fin 256, UInt8.ofNat m &&& 0x80 = 0 ∨ UInt8.ofNat m &&& 0x80 = 0x80 := by
    decide +kernel
  have hb := hbytes ⟨b.toNat, b.toNat_lt⟩
  rwa [UInt8.ofNat_toNat] at hb

namespace LengthForm

theorem length_write (form : LengthForm) (flag : UInt8) (n : Nat) :
    (form.write flag n).length = 1 + form.extension := by
  cases form with
  | inSecondByte => rfl
  | inTwoBytes => simp [write, extension]
  | inEightBytes => simp [write, extension]

theorem extension_le (form : LengthForm) : form.extension ≤ 8 := by
  cases form <;> decide

/-- Digits that are read are the written form of what they tell. -/
theorem write_of_split? {k : Nat} {after digits rest : Bytes}
    (hs : Bytes.split? k after = some (digits, rest)) (hk : k ≤ 8) :
    (UInt64.ofNat (BigEndian.toNat digits)).toNat < 256 ^ k ∧
      after = BigEndian.ofNat k (UInt64.ofNat (BigEndian.toNat digits)).toNat ++ rest := by
  obtain ⟨rfl, hlength⟩ := Bytes.split?_eq_some_iff.mp hs
  have hlt := BigEndian.toNat_lt digits
  have hword : (256 : Nat) ^ k ≤ 256 ^ 8 := Nat.pow_le_pow_right (by decide) hk
  rw [hlength] at hlt
  have hvalue : (UInt64.ofNat (BigEndian.toNat digits)).toNat = BigEndian.toNat digits := by
    rw [UInt64.toNat_ofNat', Nat.mod_eq_of_lt (by omega)]
  rw [hvalue, ← hlength, BigEndian.ofNat_toNat, hlength]
  exact ⟨hlt, rfl⟩

theorem low_of_announcedBy {low : UInt8} :
    (announcedBy low = .inTwoBytes → low = 126) ∧ (announcedBy low = .inEightBytes → low = 127) := by
  unfold announcedBy
  split
  next h126 => exact ⟨fun _ => h126, fun hform => nomatch hform⟩
  split
  next h127 => exact ⟨fun hform => (nomatch hform), fun _ => h127⟩
  next => exact ⟨fun hform => (nomatch hform), fun hform => nomatch hform⟩

/-- A length that is told was written in the form that the second byte announces, which has room for
it. -/
theorem write_of_read? {second : UInt8} {after : Bytes} {length : UInt64}
    (h : read? (second &&& 0x7F) after = some length) :
    ∃ form more, announcedBy (second &&& 0x7F) = form ∧ form.Holds length.toNat ∧
      second :: after = form.write (second &&& 0x80) length.toNat ++ more := by
  have hsecond := flag_or_low_self second
  cases hform : announcedBy (second &&& 0x7F) with
  | inSecondByte =>
    simp only [read?, hform] at h
    obtain rfl := Option.some.inj h
    have hlow : (second &&& 0x7F).toUInt64.toNat = (second &&& 0x7F).toNat :=
      UInt8.toNat_toUInt64 _
    rw [hlow]
    refine ⟨_, after, rfl, ?_, ?_⟩
    · -- the two numbers above 125 announce the other forms
      have hle : (second &&& 0x7F).toNat ≤ 127 := by
        rw [UInt8.toNat_and]
        exact Nat.and_le_right
      have hne : ∀ m : UInt8, announcedBy m ≠ .inSecondByte →
          (second &&& 0x7F).toNat ≠ m.toNat := by
        intro m hm heq
        rw [UInt8.toNat_inj.mp heq] at hform
        exact hm hform
      have h126 : (second &&& 0x7F).toNat ≠ 126 := hne 126 (by decide)
      have h127 : (second &&& 0x7F).toNat ≠ 127 := hne 127 (by decide)
      show (second &&& 0x7F).toNat < 126
      omega
    · rw [write, UInt8.ofNat_toNat, hsecond]
      rfl
  | inTwoBytes =>
    simp only [read?, hform, Option.map_eq_some_iff] at h
    obtain ⟨⟨digits, rest⟩, hs, rfl⟩ := h
    obtain ⟨hlt, hafter⟩ := write_of_split? hs (by decide)
    refine ⟨_, rest, rfl, hlt, ?_⟩
    rw [low_of_announcedBy.1 hform] at hsecond
    rw [write, hsecond, List.cons_append]
    exact congrArg (second :: ·) hafter
  | inEightBytes =>
    simp only [read?, hform, Option.map_eq_some_iff] at h
    obtain ⟨⟨digits, rest⟩, hs, rfl⟩ := h
    obtain ⟨hlt, hafter⟩ := write_of_split? hs (by decide)
    refine ⟨_, rest, rfl, hlt, ?_⟩
    rw [low_of_announcedBy.2 hform] at hsecond
    rw [write, hsecond, List.cons_append]
    exact congrArg (second :: ·) hafter

end LengthForm

theorem MaskKey.ofBytes?_eq_some_iff {bytes : Bytes} {key : MaskKey} :
    ofBytes? bytes = some key ↔ bytes = key.toBytes := by
  constructor
  · intro h
    unfold ofBytes? at h
    split at h
    · exact Option.some.inj h ▸ rfl
    · cases h
  · rintro rfl
    exact ofBytes?_toBytes key

/-- The violation has nothing to do with the code in a close frame. -/
def Violation.IsEarly (cause : Violation) : Prop := ∀ code, cause ≠ .invalidCloseCode code

namespace Frame

/-! ## Headers -/

/-- What the first byte of a frame says.  Its reserved bits are clear. -/
structure Opens (first : UInt8) (final : Bool) (opcode : Opcode) : Prop where
  reserved : first &&& 0x70 = 0
  kind : first &&& 0x0F = opcode.toByte
  final_eq : final = decide (first &&& 0x80 ≠ 0)

/-- What the header of a frame may announce. -/
structure Admits (limit : UInt64) (final : Bool) (opcode : Opcode) (length : Nat) : Prop where
  /-- A control frame comes in one piece -/
  whole : opcode.isControl = true → final = true
  /-- and is short. -/
  short : opcode.isControl = true → length ≤ 125
  /-- A close frame is empty or has room for a code. -/
  coded : opcode = .close → length ≠ 1
  within : length ≤ limit.toNat

variable {limit : UInt64}

theorem Header.violation?_eq_none_iff {header : Header} :
    header.violation? limit = none ↔
      Admits limit header.final header.opcode header.length.toNat := by
  have hlong : maxControlPayload < header.length ↔ 125 < header.length.toNat := UInt64.lt_iff_toNat_lt
  have hone : header.length = 1 ↔ header.length.toNat = 1 := UInt64.toNat_inj.symm
  have hover : limit < header.length ↔ limit.toNat < header.length.toNat := UInt64.lt_iff_toNat_lt
  simp only [violation?, hlong, hone, hover]
  constructor
  · intro h
    split at h
    · cases h
    next hwhole =>
    split at h
    · cases h
    next hshort =>
    split at h
    · cases h
    next hcoded =>
    split at h
    · cases h
    next hwithin =>
    refine ⟨fun hc => ?_, fun hc => ?_, fun hc hl => hcoded ⟨hc, hl⟩, Nat.le_of_not_lt hwithin⟩
    · exact Classical.byContradiction fun hf => hwhole ⟨hc, hf⟩
    · exact Nat.le_of_not_lt fun hl => hshort ⟨hc, hl⟩
  · intro h
    rw [if_neg fun hc => hc.2 (h.whole hc.1), if_neg fun hc => Nat.not_lt.mpr (h.short hc.1) hc.2,
      if_neg fun hc => h.coded hc.1 hc.2, if_neg (Nat.not_lt.mpr h.within)]

theorem Header.isEarly_of_violation? {header : Header} {cause : Violation}
    (h : header.violation? limit = some cause) : cause.IsEarly := by
  intro code heq
  subst heq
  simp only [violation?] at h
  repeat' split at h
  all_goals cases h

theorem Header.isEarly_of_read {received : Bytes} {cause : Violation}
    (h : Header.read received = .error cause) : cause.IsEarly := by
  intro code heq
  subst heq
  match received with
  | [] | [_] => simp [Header.read] at h
  | first :: second :: after =>
    simp only [Header.read] at h
    repeat' split at h
    all_goals cases h

/-- The header that a first byte and a length field in some form tell. -/
def Header.told (final : Bool) (opcode : Opcode) (form : LengthForm) (length : Nat) : Header :=
  { final, opcode, length := UInt64.ofNat length, size := 2 + UInt64.ofNat form.extension }

theorem Header.toNat_size_told (final : Bool) (opcode : Opcode) (form : LengthForm) (length : Nat) :
    (told final opcode form length).size.toNat = 2 + form.extension := by
  cases form <;> rfl

theorem Header.toNat_length_told (final : Bool) (opcode : Opcode) {form : LengthForm} {length : Nat}
    (h : form.Holds length) : (told final opcode form length).length.toNat = length := by
  have hword : length < 2 ^ 64 := by
    cases form with
    | inSecondByte => exact Nat.lt_trans h (by decide)
    | inTwoBytes => exact Nat.lt_trans h (by decide)
    | inEightBytes => exact h
  exact (UInt64.toNat_ofNat' (n := length)).trans (Nat.mod_eq_of_lt hword)

/-- A header is read as soon as its length is complete. -/
theorem Header.read_write {first : UInt8} {final : Bool} {opcode : Opcode} {form : LengthForm}
    {length : Nat} (hopens : Opens first final opcode) (hholds : form.Holds length) (more : Bytes) :
    Header.read (first :: form.write 0x80 length ++ more) =
      .ok (some (told final opcode form length)) := by
  obtain ⟨second, digits, hwrite, hflag, hform, -, hlength⟩ :=
    LengthForm.read?_write (.inr rfl) (.inl hholds)
  have hopcode : Opcode.ofByte? (first &&& 0x0F) = some opcode :=
    hopens.kind ▸ Opcode.ofByte?_toByte opcode
  have hread := LengthForm.read?_append more hlength
  have hmasked : ¬ second &&& 0x80 = 0 := by
    rw [hflag]
    decide
  simp only [hwrite, List.cons_append, Header.read, hopens.reserved, ne_eq, not_true, if_false,
    hopcode, hmasked, hread, hform, Option.map_some, told, hopens.final_eq]

/-- What is read of a header was written at the front. -/
theorem Header.exists_of_read {received : Bytes} {header : Header}
    (h : Header.read received = .ok (some header)) :
    ∃ (first : UInt8) (form : LengthForm) (more : Bytes), Opens first header.final header.opcode ∧
      form.Holds header.length.toNat ∧ header.size.toNat = 2 + form.extension ∧
      received = first :: form.write 0x80 header.length.toNat ++ more := by
  match received with
  | [] | [_] => simp [Header.read] at h
  | first :: second :: after =>
    simp only [Header.read] at h
    split at h
    · cases h
    next hreserved =>
    split at h
    · cases h
    next opcode hopcode =>
    split at h
    · cases h
    next hmasked =>
    obtain ⟨length, hlength, rfl⟩ := Option.map_eq_some_iff.mp (Except.ok.inj h)
    obtain ⟨form, more, hform, hholds, hwritten⟩ := LengthForm.write_of_read? hlength
    rw [(flag_eq second).resolve_left hmasked] at hwritten
    refine ⟨first, form, more, ⟨?_, ?_, rfl⟩, hholds, ?_, congrArg (first :: ·) hwritten⟩
    · exact Classical.byContradiction hreserved
    · exact (Opcode.toByte_of_ofByte? hopcode).symm
    · rw [hform]
      exact toNat_size_told false opcode form 0

/-! ## What follows a header -/

theorem Header.body?_eq_some_iff {header : Header} {received payload rest : Bytes} {key : MaskKey} :
    header.body? received = some (key, payload, rest) ↔
      ∃ front, front.length = header.size.toNat ∧ payload.length = header.length.toNat ∧
        received = front ++ (key.toBytes ++ (payload ++ rest)) := by
  simp only [body?, Option.bind_eq_bind, Option.bind_eq_some_iff, Prod.exists,
    Bytes.split?_eq_some_iff, MaskKey.ofBytes?_eq_some_iff]
  constructor
  · rintro ⟨front, _, ⟨rfl, hfront⟩, _, _, ⟨rfl, -⟩, key', rfl, payload', rest', ⟨rfl, hpayload⟩, heq⟩
    cases heq
    exact ⟨front, hfront, hpayload, rfl⟩
  · rintro ⟨front, hfront, hpayload, rfl⟩
    exact ⟨front, _, ⟨rfl, hfront⟩, _, _, ⟨rfl, rfl⟩, key, rfl, payload, rest, ⟨rfl, hpayload⟩, rfl⟩

/-- A masked frame as a header, a key, the payload under the key, and what follows. -/
theorem writeMasked_append (first : UInt8) (form : LengthForm) (key : MaskKey) (payload rest : Bytes) :
    writeMasked first form key payload ++ rest =
      first :: form.write 0x80 payload.length ++ (key.toBytes ++ (key.apply payload ++ rest)) := by
  simp only [writeMasked, List.append_assoc, List.cons_append]

theorem length_writeMasked (first : UInt8) (form : LengthForm) (key : MaskKey) (payload : Bytes) :
    (writeMasked first form key payload).length = 2 + form.extension + 4 + payload.length := by
  simp only [writeMasked, List.length_append, List.length_cons, LengthForm.length_write,
    MaskKey.length_apply, MaskKey.toBytes, List.length_nil]
  omega

/-! ## Legal frames -/

/-- The bytes of a frame, masked. -/
inductive SpellsMasked (frame : Frame) : Bytes → Prop
  | mk {first : UInt8} {form : LengthForm} (key : MaskKey)
      (opens : Opens first frame.final frame.opcode) (holds : form.Holds frame.payload.length) :
      SpellsMasked frame (writeMasked first form key frame.payload)

/-- A frame that a client may send: its header may be announced, and the code in a close frame may be
sent. -/
structure IsLegal (limit : UInt64) (frame : Frame) : Prop where
  admits : Admits limit frame.final frame.opcode frame.payload.length
  maySend : ∀ code ∈ frame.closeCode?, code.MaySend

/-- A first byte, a length and a mask key take six bytes at least. -/
theorem SpellsMasked.six_le {frame : Frame} {bytes : Bytes} (h : frame.SpellsMasked bytes) :
    6 ≤ bytes.length := by
  cases h
  rw [length_writeMasked]
  omega

/-! ## Readings -/

/-- What reading comes to once a frame was taken: all that is left to check is its close code. -/
def judge (frame : Frame) (rest : Bytes) : Reading :=
  match frame.closeCode? with
  | some code => if code.MaySend then .frame frame rest else .violation (.invalidCloseCode code) rest
  | none => .frame frame rest

theorem judge_eq_frame_iff {taken frame : Frame} {left rest : Bytes} :
    judge taken left = .frame frame rest ↔
      taken = frame ∧ left = rest ∧ ∀ code ∈ frame.closeCode?, code.MaySend := by
  unfold judge
  cases hcode : taken.closeCode? with
  | none =>
    constructor
    · intro h
      obtain ⟨rfl, rfl⟩ := Reading.frame.inj h
      exact ⟨rfl, rfl, fun code hc => nomatch hcode.symm.trans hc⟩
    · rintro ⟨rfl, rfl, -⟩
      rfl
  | some code =>
    by_cases hmay : code.MaySend
    · simp only [if_pos hmay]
      constructor
      · intro h
        obtain ⟨rfl, rfl⟩ := Reading.frame.inj h
        refine ⟨rfl, rfl, fun other ho => ?_⟩
        obtain rfl := Option.some.inj (hcode.symm.trans ho)
        exact hmay
      · rintro ⟨rfl, rfl, -⟩
        rfl
    · simp only [if_neg hmay, reduceCtorEq, false_iff]
      rintro ⟨rfl, rfl, hall⟩
      exact hmay (hall code hcode)

theorem judge_eq_violation_iff {taken : Frame} {left rest : Bytes} {cause : Violation} :
    judge taken left = .violation cause rest ↔
      left = rest ∧ ∃ code ∈ taken.closeCode?, ¬ code.MaySend ∧ cause = .invalidCloseCode code := by
  unfold judge
  cases hcode : taken.closeCode? with
  | none => simp
  | some code =>
    by_cases hmay : code.MaySend
    · simp [hmay]
    · simp [hmay, and_comm, eq_comm]

/-- Everything that reading can come to. -/
inductive Outcome (limit : UInt64) (received : Bytes) : Reading → Prop where
  | incomplete : Outcome limit received .incomplete
  | outOfBounds : Outcome limit received .outOfBounds
  /-- The header alone breaks a rule; nothing is taken. -/
  | early {cause : Violation} (isEarly : cause.IsEarly) : Outcome limit received (.violation cause received)
  | taken {frame : Frame} {first : UInt8} {form : LengthForm} {key : MaskKey} {rest : Bytes}
      (opens : Opens first frame.final frame.opcode) (holds : form.Holds frame.payload.length)
      (admits : Admits limit frame.final frame.opcode frame.payload.length)
      (received_eq : received = writeMasked first form key frame.payload ++ rest) :
      Outcome limit received (judge frame rest)

theorem outcome_readMasked (hlimit : limit.toNat + 14 < 2 ^ 64) (received : Bytes) :
    Outcome limit received (readMasked limit received) := by
  unfold readMasked
  cases hr : Header.read received with
  | error cause => exact .early (Header.isEarly_of_read hr)
  | ok header? =>
    cases header? with
    | none => exact .incomplete
    | some header =>
      cases hv : header.violation? limit with
      | some cause =>
        simp only [hv]
        exact .early (Header.isEarly_of_violation? hv)
      | none =>
        simp only [hv]
        split
        · exact .outOfBounds
        split
        · exact .incomplete
        next hlength =>
        rw [Bytes.hasAtLeast_iff, Classical.not_not, Header.toNat_frameSize hlimit hr hv] at hlength
        obtain ⟨key, masked, rest, hb⟩ := Header.exists_body? hlength
        simp only [hb]
        -- the bytes of the header are those in front of the key
        obtain ⟨first, form, more, hopens, hholds, hsize, hwritten⟩ := Header.exists_of_read hr
        obtain ⟨front, hfront, hmasked, hbody⟩ := Header.body?_eq_some_iff.mp hb
        have hadmits := Header.violation?_eq_none_iff.mp hv
        have hsame : front.length = (first :: form.write 0x80 header.length.toNat).length := by
          rw [hfront, hsize, List.length_cons, LengthForm.length_write]
          omega
        obtain ⟨rfl, -⟩ := List.append_inj (hbody.symm.trans hwritten) hsame
        rw [← hmasked] at hholds hadmits hbody
        refine @Outcome.taken limit received
          { final := header.final, opcode := header.opcode, payload := key.apply masked }
          first form key rest hopens ?_ ?_ ?_
        · rw [MaskKey.length_apply]
          exact hholds
        · rw [MaskKey.length_apply]
          exact hadmits
        · rw [writeMasked_append, MaskKey.apply_apply, MaskKey.length_apply]
          exact hbody

/-- A frame that is taken is legal, and its bytes stood at the front. -/
theorem legal_of_readMasked (hlimit : limit.toNat + 14 < 2 ^ 64) {received rest : Bytes} {frame : Frame}
    (h : readMasked limit received = .frame frame rest) :
    frame.IsLegal limit ∧ ∃ bytes, frame.SpellsMasked bytes ∧ received = bytes ++ rest := by
  have houtcome := outcome_readMasked hlimit received
  rw [h] at houtcome
  generalize hreading : Reading.frame frame rest = reading at houtcome
  cases houtcome with
  | incomplete => cases hreading
  | outOfBounds => cases hreading
  | early _ => cases hreading
  | taken hopens hholds hadmits hreceived =>
    obtain ⟨rfl, rfl, hmay⟩ := judge_eq_frame_iff.mp hreading.symm
    exact ⟨⟨hadmits, hmay⟩, _, .mk _ hopens hholds, hreceived⟩

/-- A violation takes nothing, or it is a bad close code and takes its frame. -/
theorem early_or_taken_of_violation (hlimit : limit.toNat + 14 < 2 ^ 64) {received rest : Bytes}
    {cause : Violation} (h : readMasked limit received = .violation cause rest) :
    cause.IsEarly ∧ rest = received ∨
      ∃ code, cause = .invalidCloseCode code ∧ ¬ code.MaySend ∧
        ∃ (frame : Frame) (bytes : Bytes), frame.closeCode? = some code ∧
          Admits limit frame.final frame.opcode frame.payload.length ∧
          frame.SpellsMasked bytes ∧ received = bytes ++ rest := by
  have houtcome := outcome_readMasked hlimit received
  rw [h] at houtcome
  generalize hreading : Reading.violation cause rest = reading at houtcome
  cases houtcome with
  | incomplete => cases hreading
  | outOfBounds => cases hreading
  | early hearly =>
    obtain ⟨rfl, rfl⟩ := Reading.violation.inj hreading
    exact .inl ⟨hearly, rfl⟩
  | taken hopens hholds hadmits hreceived =>
    obtain ⟨rfl, code, hcode, hmay, rfl⟩ := judge_eq_violation_iff.mp hreading.symm
    exact .inr ⟨code, rfl, hmay, _, _, hcode, hadmits, .mk _ hopens hholds, hreceived⟩

/-- A frame that stands at the front of a buffer is taken. -/
theorem readMasked_writeMasked {frame : Frame} {first : UInt8} {form : LengthForm}
    (hopens : Opens first frame.final frame.opcode) (hholds : form.Holds frame.payload.length)
    (hadmits : Admits limit frame.final frame.opcode frame.payload.length) (key : MaskKey)
    (rest : Bytes) (hbuffer : (writeMasked first form key frame.payload ++ rest).length < 2 ^ 63) :
    readMasked limit (writeMasked first form key frame.payload ++ rest) = judge frame rest := by
  have hsize := Header.toNat_size_told frame.final frame.opcode form frame.payload.length
  have hpayload := Header.toNat_length_told frame.final frame.opcode hholds
  have hextension := form.extension_le
  rw [List.length_append, length_writeMasked] at hbuffer
  have hr : Header.read (writeMasked first form key frame.payload ++ rest) =
      .ok (some (.told frame.final frame.opcode form frame.payload.length)) := by
    rw [writeMasked_append]
    exact Header.read_write hopens hholds _
  generalize hheader : Header.told frame.final frame.opcode form frame.payload.length = header
    at hsize hpayload hr
  have hfinal : header.final = frame.final := hheader ▸ rfl
  have hopcode : header.opcode = frame.opcode := hheader ▸ rfl
  have hv : header.violation? limit = none := by
    rw [Header.violation?_eq_none_iff, hfinal, hopcode, hpayload]
    exact hadmits
  -- the size is that of the frame, since that lies in a buffer
  have htotal : header.frameSize.toNat = 2 + form.extension + 4 + frame.payload.length := by
    have h4 : (4 : UInt64).toNat = 4 := rfl
    rw [Header.frameSize, UInt64.toNat_add, UInt64.toNat_add, h4, hsize, hpayload]
    omega
  have hx : ¬ header.ExceedsBuffers := by
    intro hx
    have hbound : bufferBound.toNat ≤ header.frameSize.toNat := UInt64.le_iff_toNat_le.mp hx
    have hvalue : bufferBound.toNat = 2 ^ 63 := by decide
    omega
  have hlength : Bytes.hasAtLeast header.frameSize.toNat
      (writeMasked first form key frame.payload ++ rest) = true := by
    rw [Bytes.hasAtLeast_iff, List.length_append, length_writeMasked, htotal]
    omega
  have hb : header.body? (writeMasked first form key frame.payload ++ rest) =
      some (key, key.apply frame.payload, rest) := by
    refine Header.body?_eq_some_iff.mpr
      ⟨first :: form.write 0x80 frame.payload.length, ?_, ?_, writeMasked_append _ _ _ _ _⟩
    · rw [hsize, List.length_cons, LengthForm.length_write]
      omega
    · rw [MaskKey.length_apply, hpayload]
  simp only [readMasked, hr, hv, if_neg hx, hlength, not_true, if_false, hb, MaskKey.apply_apply,
    hfinal, hopcode]
  rfl

/-- What the first byte and the length announce is admitted, and the mask bit is set. -/
def AdmitsHeader (limit : UInt64) (first flag : UInt8) (length : Nat) : Prop :=
  flag = 0x80 ∧ ∃ final opcode, Opens first final opcode ∧ Admits limit final opcode length

/-- A header that may not be announced is refused as soon as its length is complete. -/
theorem exists_violation_iff {first flag : UInt8} {form : LengthForm} {length : Nat}
    (hflag : flag = 0 ∨ flag = 0x80) (hholds : form.Holds length) (more : Bytes) :
    (∃ cause : Violation, cause.IsEarly ∧
      readMasked limit (first :: form.write flag length ++ more) =
        .violation cause (first :: form.write flag length ++ more)) ↔
      ¬ AdmitsHeader limit first flag length := by
  constructor
  · rintro ⟨cause, hearly, hviolation⟩ ⟨rfl, final, opcode, hopens, hadmits⟩
    have hv : (Header.told final opcode form length).violation? limit = none := by
      rw [Header.violation?_eq_none_iff, Header.toNat_length_told final opcode hholds]
      exact hadmits
    simp only [readMasked, Header.read_write hopens hholds more, hv] at hviolation
    -- only the code of a close frame is left to refuse
    split at hviolation
    · cases hviolation
    split at hviolation
    · cases hviolation
    split at hviolation
    · cases hviolation
    next key payload rest _ =>
    obtain ⟨-, code, -, -, rfl⟩ := judge_eq_violation_iff.mp hviolation
    exact hearly code rfl
  · intro hnot
    obtain ⟨second, digits, hwrite, hsecond, -, -, -⟩ :=
      LengthForm.read?_write hflag (.inl hholds)
    have hearly : ∀ cause, Header.read (first :: form.write flag length ++ more) = .error cause →
        ∃ cause : Violation, cause.IsEarly ∧
          readMasked limit (first :: form.write flag length ++ more) =
            .violation cause (first :: form.write flag length ++ more) :=
      fun cause hr => ⟨cause, Header.isEarly_of_read hr, by simp only [readMasked, hr]⟩
    by_cases hreserved : first &&& 0x70 = 0
    case neg =>
      refine hearly .reservedBits ?_
      simp only [hwrite, List.cons_append, Header.read, ne_eq, hreserved, not_false_eq_true, if_true]
    cases hopcode : Opcode.ofByte? (first &&& 0x0F) with
    | none =>
      refine hearly (.reservedOpcode (first &&& 0x0F)) ?_
      simp only [hwrite, List.cons_append, Header.read, ne_eq, hreserved, not_true, if_false, hopcode]
    | some opcode =>
      rcases hflag with rfl | rfl
      · refine hearly .unmaskedFrame ?_
        simp only [hwrite, List.cons_append, Header.read, ne_eq, hreserved, not_true, if_false,
          hopcode, hsecond, if_true]
      · have hopens : Opens first (decide (first &&& 0x80 ≠ 0)) opcode :=
          ⟨hreserved, (Opcode.toByte_of_ofByte? hopcode).symm, rfl⟩
        cases hv : (Header.told (decide (first &&& 0x80 ≠ 0)) opcode form length).violation? limit with
        | none =>
          rw [Header.violation?_eq_none_iff,
            Header.toNat_length_told (decide (first &&& 0x80 ≠ 0)) opcode hholds] at hv
          exact (hnot ⟨rfl, _, opcode, hopens, hv⟩).elim
        | some cause =>
          refine ⟨cause, Header.isEarly_of_violation? hv, ?_⟩
          simp only [readMasked, Header.read_write hopens hholds more, hv]

end Frame

open WebSocket.Frame

/-- **Reading takes the legal frames and nothing else.**  Here a buffer is a string of fewer than 2^63
bytes; there is no larger one. -/
theorem readMasked_grammar {limit : UInt64} (hlimit : limit.toNat + 14 < 2 ^ 64) {received : Bytes}
    (hbuffer : received.length < 2 ^ 63) :
    -- a frame is taken exactly where the buffer begins with the bytes of a legal one
    (∀ (frame : Frame) (rest : Bytes), readMasked limit received = .frame frame rest ↔
      frame.IsLegal limit ∧ ∃ bytes, frame.SpellsMasked bytes ∧ received = bytes ++ rest) ∧
    -- a bad close code takes exactly its frame with it
    (∀ code rest, readMasked limit received = .violation (.invalidCloseCode code) rest ↔
      ¬ code.MaySend ∧ ∃ (frame : Frame) (bytes : Bytes), frame.closeCode? = some code ∧
        Admits limit frame.final frame.opcode frame.payload.length ∧
        frame.SpellsMasked bytes ∧ received = bytes ++ rest) ∧
    -- any other violation takes nothing, and neither does a frame that is not complete
    (∀ cause rest, readMasked limit received = .violation cause rest → cause.IsEarly →
      rest = received) ∧
    (readMasked limit received = .incomplete →
      readAll limit received = { frames := [], stop := .incomplete, rest := received }) ∧
    -- once the length is complete, a header that may not be announced is refused
    (∀ (first flag : UInt8) (form : LengthForm) (length : Nat) (more : Bytes),
      flag = 0 ∨ flag = 0x80 → form.Holds length →
        received = first :: form.write flag length ++ more →
          ((∃ cause : Violation, cause.IsEarly ∧
            readMasked limit received = .violation cause received) ↔
              ¬ AdmitsHeader limit first flag length)) := by
  refine ⟨?_, ?_, ?_, readAll_of_incomplete, ?_⟩
  · intro frame rest
    constructor
    · exact legal_of_readMasked hlimit
    · rintro ⟨⟨hadmits, hmay⟩, _, ⟨key, hopens, hholds⟩, rfl⟩
      rw [readMasked_writeMasked hopens hholds hadmits key rest hbuffer]
      exact judge_eq_frame_iff.mpr ⟨rfl, rfl, hmay⟩
  · intro code rest
    constructor
    · intro h
      rcases early_or_taken_of_violation hlimit h with ⟨hearly, -⟩ | ⟨other, heq, hmay, htaken⟩
      · exact (hearly code rfl).elim
      · obtain rfl := Violation.invalidCloseCode.inj heq
        exact ⟨hmay, htaken⟩
    · rintro ⟨hmay, frame, _, hcode, hadmits, ⟨key, hopens, hholds⟩, rfl⟩
      rw [readMasked_writeMasked hopens hholds hadmits key rest hbuffer]
      exact judge_eq_violation_iff.mpr ⟨rfl, code, hcode, hmay, rfl⟩
  · intro cause rest h hearly
    rcases early_or_taken_of_violation hlimit h with ⟨-, hrest⟩ | ⟨code, heq, -⟩
    · exact hrest
    · exact (hearly code heq).elim
  · rintro first flag form length more hflag hholds rfl
    exact exists_violation_iff hflag hholds more

/-- Two letters whose number is written in a longer form than it needs, where two are allowed. -/
theorem readMasked_long_form :
    (2 : UInt64).toNat + 14 < 2 ^ 64 ∧
      readMasked 2 (writeMasked 0x81 .inTwoBytes ⟨1, 2, 3, 4⟩ [104, 105] ++ [0x89]) =
        .frame { final := true, opcode := .text, payload := [104, 105] } [0x89] := by
  have hlimit : (2 : UInt64).toNat + 14 < 2 ^ 64 := by decide
  have hgrammar := @readMasked_grammar 2 hlimit
    (writeMasked 0x81 .inTwoBytes ⟨1, 2, 3, 4⟩ [104, 105] ++ [0x89]) (by decide)
  refine ⟨hlimit, (hgrammar.1 _ _).mpr ⟨⟨⟨?_, ?_, ?_, ?_⟩, ?_⟩, _, .mk _ ⟨?_, ?_, ?_⟩ ?_, rfl⟩⟩
  · intro _
    rfl
  · intro _
    decide
  · intro h
    cases h
  · decide
  · intro code h
    cases h
  · decide
  · rfl
  · decide
  · show 2 < 2 ^ 16
    decide

end ServiceDirectory.WebSocket

import ServiceDirectory.WebSocket.Length
import ServiceDirectory.WebSocket.Mask
import ServiceDirectory.WebSocket.Violation

/-!
# Frames

A frame is a first byte (the FIN bit, three reserved bits and the opcode), the length of the
payload, for a client the four bytes of the mask key, and the payload.

The server writes frames that are final and not masked (`Frame.write`) and reads frames that are
masked (`Frame.readMasked`).  The counterparts a client needs are beside them: `Frame.writeMasked`
and `Frame.readUnmasked?`.

The end of a client frame is computed in words of 64 bits, as is every size here.  The sum stays
below 2^64 for every payload within a limit that leaves room for the 14 bytes of the longest header;
where a larger limit lets the sum wrap, the frame's parts do not lie where the sum says.  A buffer
holds fewer than 2^63 bytes, so a sum from there on asks for room that there cannot be.  In both
cases reading the frame gives `Reading.outOfBounds`.
-/

namespace ServiceDirectory.WebSocket

/-- A frame, its payload in the clear. -/
structure Frame where
  final : Bool
  opcode : Opcode
  payload : Bytes
  deriving DecidableEq, Repr

/-- The largest payload of a control frame. -/
def maxControlPayload : UInt64 := 125

namespace Frame

/-- The code in a close frame of at least two bytes. -/
def closeCode? (frame : Frame) : Option CloseCode :=
  match frame.opcode, frame.payload with
  | .close, high :: low :: _ => some (UInt16.ofNat (BigEndian.toNat [high, low]))
  | _, _ => none

/-! ## Writing -/

/-- The first byte of a final frame. -/
def finalByte (opcode : Opcode) : UInt8 := 0x80 ||| opcode.toByte

/-- A final frame that is not masked, its length in the shortest form. -/
def write (opcode : Opcode) (payload : Bytes) : Bytes :=
  finalByte opcode :: (LengthForm.shortest payload.length).write 0 payload.length ++ payload

/-- A text message in one frame, its characters given as UTF-8. -/
def writeText (utf8 : Bytes) : Bytes := write .text utf8

/-- A close frame, with or without a code. -/
def writeClose (code : Option CloseCode) : Bytes :=
  write .close (match code with
    | some code => BigEndian.ofNat 2 code.toNat
    | none => [])

/-- A masked frame with a given first byte, its length in a given form. -/
def writeMasked (first : UInt8) (form : LengthForm) (key : MaskKey) (payload : Bytes) : Bytes :=
  first :: form.write 0x80 payload.length ++ key.toBytes ++ key.apply payload

/-! ## Reading frames that are not masked -/

/-- The first frame of a stream that is not masked and what follows it, or nothing when it is not
complete or has a reserved opcode. -/
def readUnmasked? : Bytes → Option (Frame × Bytes)
  | first :: second :: after => do
    let opcode ← Opcode.ofByte? (first &&& 0x0F)
    let low := second &&& 0x7F
    let length ← LengthForm.read? low after
    let body := after.drop (LengthForm.announcedBy low).extension
    let (payload, rest) ← Bytes.split? length.toNat body
    some ({ final := first &&& 0x80 ≠ 0, opcode, payload }, rest)
  | _ => none

/-! ## Reading masked frames -/

/-- A buffer holds fewer bytes than these. -/
def bufferBound : UInt64 := 0x8000000000000000

/-- What the bytes before the mask key say. -/
structure Header where
  final : Bool
  opcode : Opcode
  /-- How many bytes the payload has. -/
  length : UInt64
  /-- How many bytes stand before the mask key. -/
  size : UInt64
  deriving DecidableEq, Repr

namespace Header

/-- The header at the front of the bytes received, or nothing while it is not complete.  The
reserved bits, the opcode and the mask bit are judged as soon as two bytes are there. -/
def read : Bytes → Except Violation (Option Header)
  | first :: second :: after =>
    if first &&& 0x70 ≠ 0 then .error .reservedBits
    else match Opcode.ofByte? (first &&& 0x0F) with
      | none => .error (.reservedOpcode (first &&& 0x0F))
      | some opcode =>
        if second &&& 0x80 = 0 then .error .unmaskedFrame
        else
          let low := second &&& 0x7F
          .ok <| (LengthForm.read? low after).map fun length =>
            { final := first &&& 0x80 ≠ 0
              opcode
              length
              size := 2 + UInt64.ofNat (LengthForm.announcedBy low).extension }
  | _ => .ok none

/-- The first rule that a complete header breaks, whatever its payload holds. -/
def violation? (limit : UInt64) (header : Header) : Option Violation :=
  if header.opcode.isControl ∧ ¬ header.final then some .fragmentedControl
  else if header.opcode.isControl ∧ maxControlPayload < header.length then
    some (.controlTooLarge header.length)
  else if header.opcode = .close ∧ header.length = 1 then some .invalidClosePayload
  else if limit < header.length then some (.messageTooBig header.length limit)
  else none

/-- How many bytes the whole frame has, as a word. -/
def frameSize (header : Header) : UInt64 := header.size + 4 + header.length

/-- The frame is too large for any buffer. -/
def ExceedsBuffers (header : Header) : Prop := bufferBound ≤ header.frameSize

instance (header : Header) : Decidable header.ExceedsBuffers := by
  unfold ExceedsBuffers; infer_instance

/-- The mask key, the masked payload and what follows them, when all of them are there. -/
def body? (header : Header) (received : Bytes) : Option (MaskKey × Bytes × Bytes) := do
  let (_, atKey) ← Bytes.split? header.size.toNat received
  let (key, atPayload) ← Bytes.split? 4 atKey
  let key ← MaskKey.ofBytes? key
  let (payload, rest) ← Bytes.split? header.length.toNat atPayload
  some (key, payload, rest)

end Header

/-- What reading one masked frame from the front of the bytes received comes to. -/
inductive Reading where
  /-- More bytes are needed; none were taken. -/
  | incomplete
  /-- A frame, and the bytes after it. -/
  | frame (frame : Frame) (rest : Bytes)
  /-- A rule was broken; `rest` is what was not taken. -/
  | violation (cause : Violation) (rest : Bytes)
  /-- The size of the frame wrapped around and its parts lie outside the bytes received, or no buffer
  can hold it. -/
  | outOfBounds
  deriving DecidableEq, Repr

/-- Read one masked frame of at most `limit` payload bytes.

A violation other than a bad close code is found before anything is taken; a bad close code is found
once its frame has been taken. -/
def readMasked (limit : UInt64) (received : Bytes) : Reading :=
  match Header.read received with
  | .error cause => .violation cause received
  | .ok none => .incomplete
  | .ok (some header) =>
    match header.violation? limit with
    | some cause => .violation cause received
    | none =>
      if header.ExceedsBuffers then .outOfBounds
      else if ¬ Bytes.hasAtLeast header.frameSize.toNat received then .incomplete
      else match header.body? received with
        | none => .outOfBounds
        | some (key, payload, rest) =>
          let frame : Frame :=
            { final := header.final, opcode := header.opcode, payload := key.apply payload }
          match frame.closeCode? with
          | some code =>
            if code.MaySend then .frame frame rest else .violation (.invalidCloseCode code) rest
          | none => .frame frame rest

theorem Header.length_rest_of_body? {header : Header} {received payload rest : Bytes}
    {key : MaskKey} (h : header.body? received = some (key, payload, rest)) :
    rest.length < received.length := by
  simp only [Header.body?, Option.bind_eq_bind, Option.bind_eq_some_iff, Prod.exists,
    Bytes.split?_eq_some_iff] at h
  obtain ⟨a, b, ⟨rfl, _⟩, c, d, ⟨rfl, hc⟩, _, _, e, f, ⟨rfl, _⟩, heq⟩ := h
  cases heq
  simp only [List.length_append]
  omega

/-- After a frame fewer bytes are left. -/
theorem length_rest_of_readMasked {limit : UInt64} {received rest : Bytes} {frame : Frame}
    (h : readMasked limit received = .frame frame rest) : rest.length < received.length := by
  simp only [readMasked] at h
  repeat' split at h
  all_goals first
    | (obtain ⟨-, rfl⟩ := Reading.frame.inj h; exact Header.length_rest_of_body? (by assumption))
    | simp at h

/-- After a violation no more bytes are left than were there. -/
theorem length_rest_of_violation {limit : UInt64} {received rest : Bytes} {cause : Violation}
    (h : readMasked limit received = .violation cause rest) : rest.length ≤ received.length := by
  simp only [readMasked] at h
  repeat' split at h
  all_goals first
    | (obtain ⟨-, rfl⟩ := Reading.violation.inj h
       first
        | exact Nat.le_refl _
        | exact Nat.le_of_lt (Header.length_rest_of_body? (by assumption)))
    | simp at h

end Frame

end ServiceDirectory.WebSocket

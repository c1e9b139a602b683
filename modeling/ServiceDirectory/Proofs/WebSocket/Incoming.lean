import ServiceDirectory.Proofs.WebSocket.Arrival
import ServiceDirectory.Utf8

/-!
# What comes in from a client

Read in order, the bytes of a client are frames, up to the first rule that is broken
(`Frame.Batch.incoming`).  A frame may ask for something, or break a rule of its own that shows only when
it is answered (`Frame.request?`, `Frame.fault?`).

What was read stays read: bytes that arrive later come in behind it, whatever the limit on messages
(`readMasked_append_of_frame`).
-/

namespace ServiceDirectory.WebSocket

/-! ## Frames and broken rules -/

/-- What comes in: a frame, or bytes that break a rule. -/
inductive Incoming where
  | frame (frame : Frame)
  | broken (cause : Violation)
  deriving DecidableEq, Repr

/-- What comes in with a reading. -/
def Frame.Reading.incoming? : Frame.Reading → Option Incoming
  | .frame read _ => some (.frame read)
  | .violation cause _ => some (.broken cause)
  | .incomplete | .outOfBounds => none

/-- All that comes in with a batch: its frames and the rule that was broken behind them, if one was. -/
def Frame.Batch.incoming (batch : Frame.Batch) : List Incoming :=
  batch.frames.map .frame ++
    match batch.stop with
    | .violation cause => [.broken cause]
    | .incomplete | .outOfBounds => []

namespace Frame

/-! ## What a frame asks for -/

/-- The text of the request in a frame. -/
def request? (frame : Frame) : Option (List Char) :=
  if frame.opcode = .text ∧ frame.final then Utf8.decode? frame.payload else none

/-- The rule that a frame breaks though it was read. -/
def fault? (frame : Frame) : Option Violation :=
  match frame.opcode with
  | .text =>
    if frame.final then if (Utf8.decode? frame.payload).isNone then some .invalidUtf8 else none
    else some .fragmented
  | .continuation => some .fragmented
  | .binary => some (.unsupported .binary)
  | .ping | .pong | .close => none

/-! ## What was read stays read -/

variable {limit : UInt64} {received rest : Bytes}

/-- **What came in stays as it is when more bytes arrive.** -/
theorem readMasked_append_of_incoming (more : Bytes)
    (h : (readMasked limit received).incoming?.isSome) :
    readMasked limit (received ++ more) = (readMasked limit received).extend more := by
  cases hr : Header.read received with
  | error cause =>
    simp only [readMasked, hr, Header.read_append_of_error more hr, Reading.extend]
  | ok header =>
    cases header with
    | none => simp [readMasked, hr, Reading.incoming?] at h
    | some header =>
      cases hv : header.violation? limit with
      | some cause =>
        simp only [readMasked, hr, Header.read_append_of_some more hr, hv, Reading.extend]
      | none =>
        by_cases hx : header.ExceedsBuffers
        · simp [readMasked, hr, hv, hx, Reading.incoming?] at h
        by_cases hlen : header.frameSize.toNat ≤ received.length
        · cases hb : header.body? received with
          | none => simp [readMasked, hr, hv, hx, hlen, hb, Reading.incoming?] at h
          | some parts =>
            obtain ⟨key, payload, rest⟩ := parts
            exact readMasked_append_of_body more hr hv hx hlen hb
        · simp [readMasked, hr, hv, hx, hlen, Reading.incoming?] at h

theorem incoming_readAll_of_frame {frame : Frame}
    (h : readMasked limit received = .frame frame rest) (more : Bytes) :
    (readAll limit (received ++ more)).incoming =
      .frame frame :: (readAll limit (rest ++ more)).incoming := by
  have hread : readMasked limit (received ++ more) = .frame frame (rest ++ more) := by
    rw [readMasked_append_of_incoming more (by rw [h]; rfl), h]
    rfl
  rw [readAll_of_frame hread]
  rfl

theorem incoming_readAll_of_violation {cause : Violation}
    (h : readMasked limit received = .violation cause rest) (more : Bytes) :
    (readAll limit (received ++ more)).incoming = [.broken cause] := by
  have hread : readMasked limit (received ++ more) = .violation cause (rest ++ more) := by
    rw [readMasked_append_of_incoming more (by rw [h]; rfl), h]
    rfl
  rw [readAll_of_violation hread]
  rfl

end Frame

end ServiceDirectory.WebSocket

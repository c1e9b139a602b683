import ServiceDirectory.WebSocket.Opcode
import ServiceDirectory.WebSocket.CloseCode

/-!
# Violations of the framing

Every way in which a client frame can break the rules of an upgraded connection, with the text that
describes it and the close code that answers it.  A violation ends the connection it occurs on.
-/

namespace ServiceDirectory.WebSocket

/-- A rule of the framing that a client broke. -/
inductive Violation where
  /-- A client frame has to be masked. -/
  | unmaskedFrame
  /-- No extension is ever negotiated, so the three reserved bits are clear. -/
  | reservedBits
  /-- The opcode has no meaning. -/
  | reservedOpcode (value : UInt8)
  /-- A control frame comes in one piece. -/
  | fragmentedControl
  /-- A control frame carries at most 125 bytes. -/
  | controlTooLarge (size : UInt64)
  /-- A frame carries at most as many bytes as the limit allows. -/
  | messageTooBig (size limit : UInt64)
  /-- The kind of frame is not served. -/
  | unsupported (opcode : Opcode)
  /-- Messages come in one frame. -/
  | fragmented
  /-- A text message is UTF-8. -/
  | invalidUtf8
  /-- A close frame is empty or starts with a code of two bytes. -/
  | invalidClosePayload
  /-- The code may not be put on the wire. -/
  | invalidCloseCode (code : CloseCode)
  deriving DecidableEq, Repr

namespace Violation

/-- The text that describes a violation. -/
def message : Violation → String
  | unmaskedFrame => "client frame is not masked"
  | reservedBits => "reserved bits set without a negotiated extension"
  | reservedOpcode value =>
    "reserved opcode 0x" ++ String.ofList (Nat.toDigits 16 value.toNat)
  | fragmentedControl => "control frame is fragmented"
  | controlTooLarge size => s!"control frame payload of {size.toNat} bytes exceeds 125"
  | messageTooBig size limit =>
    s!"message of {size.toNat} bytes exceeds the {limit.toNat} byte limit"
  | unsupported opcode => s!"unsupported {opcode.name} frame"
  | fragmented => "fragmented messages are not supported"
  | invalidUtf8 => "text payload is not valid UTF-8"
  | invalidClosePayload => "close frame payload of 1 byte"
  | invalidCloseCode code => s!"close code {code.toNat} may not be sent by a peer"

/-- The close code that answers a violation. -/
def closeCode : Violation → CloseCode
  | unmaskedFrame | reservedBits | reservedOpcode _ | fragmentedControl | controlTooLarge _
  | invalidClosePayload | invalidCloseCode _ => .protocolError
  | messageTooBig _ _ => .messageTooBig
  | unsupported _ | fragmented => .unsupportedData
  | invalidUtf8 => .invalidPayload

/-- Whatever the violation, the code that answers it may be put on the wire. -/
theorem maySend_closeCode (v : Violation) : v.closeCode.MaySend := by
  cases v <;> simp [closeCode] <;> decide

end Violation

end ServiceDirectory.WebSocket

/-!
# Close codes

A close frame may say why the connection ends.  Only some codes may be put on the wire by a peer:
1004, 1005, 1006 and 1015 are set aside, and 1012 to 2999 are not assigned.
-/

namespace ServiceDirectory.WebSocket

/-- The reason carried by a close frame. -/
abbrev CloseCode := UInt16

namespace CloseCode

/-- The server, or the client, is going away. -/
def goingAway : CloseCode := 1001

/-- A rule of the framing was broken. -/
def protocolError : CloseCode := 1002

/-- The kind of data received is not served here. -/
def unsupportedData : CloseCode := 1003

/-- The data received does not have the form its kind asks for. -/
def invalidPayload : CloseCode := 1007

/-- The message received is larger than the limit. -/
def messageTooBig : CloseCode := 1009

/-- The codes that a peer may put on the wire. -/
def MaySend (code : CloseCode) : Prop :=
  (1000 ≤ code ∧ code ≤ 1003) ∨ (1007 ≤ code ∧ code ≤ 1011) ∨ (3000 ≤ code ∧ code ≤ 4999)

instance (code : CloseCode) : Decidable (MaySend code) := by
  unfold MaySend; infer_instance

end CloseCode

end ServiceDirectory.WebSocket

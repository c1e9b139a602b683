import ServiceDirectory.Upgrade.Refusal
import ServiceDirectory.WebSocket.Violation

/-!
# How a connection fails

A connection that does not end in good order ends with one of these failures.  Only that connection
is affected.
-/

namespace ServiceDirectory

/-- Why a connection ended early. -/
inductive Failure where
  /-- The client is gone and takes no more bytes. -/
  | brokenPipe
  /-- The upgrade was refused. -/
  | handshake (cause : Upgrade.Refusal)
  /-- A rule of the framing was broken. -/
  | frame (cause : WebSocket.Violation)
  /-- The upgrade was not done in time. -/
  | timedOut
  /-- The client ended its input before the upgrade was done. -/
  | closedByPeer
  /-- Reading what the client sends failed. -/
  | readFailed (cause : String)
  /-- The size of a frame wrapped around, or no buffer can hold it. -/
  | frameOutOfBounds
  /-- The clock does not reach the moment until which the connection is to wait. -/
  | deadlineOutOfBounds
  deriving DecidableEq, Repr

/-- The text that describes a failure. -/
def Failure.message : Failure → String
  | brokenPipe => "I/O error: broken pipe"
  | handshake cause => "handshake failed: " ++ cause.message
  | frame cause => "frame protocol error: " ++ cause.message
  | timedOut => "timed out"
  | closedByPeer => "connection closed by peer"
  | readFailed cause => "I/O error: " ++ cause
  | frameOutOfBounds => "frame size out of bounds"
  | deadlineOutOfBounds => "overflow when adding duration to instant"

/-- A number was out of bounds.  A connection that fails so breaks off where it stands. -/
def Failure.isOutOfBounds : Failure → Bool
  | frameOutOfBounds | deadlineOutOfBounds => true
  | _ => false

end ServiceDirectory

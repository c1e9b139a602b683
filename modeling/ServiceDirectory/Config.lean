import ServiceDirectory.Entry.Policy
import ServiceDirectory.Net.SocketAddress
import ServiceDirectory.WebSocket.Frame

/-!
# What a server may be set to

The settings of a server, with what they are when nothing is said, and the ways to change them.  Times
are in milliseconds and sizes in bytes.
-/

namespace ServiceDirectory

/-- The settings of a server. -/
structure Config where
  bindAddress : Net.SocketAddress := .v4 ⟨0, 0, 0, 0⟩ 10101
  /-- How many connections may be open at once; 0 stands for any number. -/
  maxConnections : Nat := 0
  /-- The upgrade has to be done within this time. -/
  handshakeTimeout : Nat := 10000
  /-- An open connection is closed after this long without input, if at all. -/
  idleTimeout : Option Nat := none
  /-- Small packets are sent without delay. -/
  noDelay : Bool := true
  readBufferSize : Nat := 8192
  /-- The largest request head. -/
  maxHeadSize : Nat := 8192
  /-- The largest message. -/
  maxMessageSize : UInt64 := 16777216
  /-- Changes are told to the other clients. -/
  notices : Bool := false
  /-- Single quotes are allowed for double quotes in requests. -/
  lenientQuotes : Bool := true
  policy : Policy := {}
  deriving DecidableEq, Repr

namespace Config

/-- The settings with another address to listen on. -/
def bind (config : Config) (address : Net.SocketAddress) : Config :=
  { config with bindAddress := address }

/-- The settings with another limit on connections. -/
def withMaxConnections (config : Config) (limit : Nat) : Config :=
  { config with maxConnections := limit }

/-- The settings with another time for the upgrade. -/
def withHandshakeTimeout (config : Config) (timeout : Nat) : Config :=
  { config with handshakeTimeout := timeout }

/-- The settings with a time after which idle connections are closed. -/
def withIdleTimeout (config : Config) (timeout : Nat) : Config :=
  { config with idleTimeout := some timeout }

/-- The settings with another limit on messages, which leaves room for any control frame. -/
def withMaxMessageSize (config : Config) (size : UInt64) : Config :=
  { config with maxMessageSize := max size WebSocket.maxControlPayload }

/-- The settings with notices of changes on or off. -/
def withNotices (config : Config) (on : Bool) : Config := { config with notices := on }

/-- The settings with single quotes allowed or not. -/
def withLenientQuotes (config : Config) (on : Bool) : Config := { config with lenientQuotes := on }

/-- The settings with another policy of the directory. -/
def withPolicy (config : Config) (policy : Policy) : Config := { config with policy }

/-- A limit that is asked for is raised to the largest control frame, and never lowered. -/
theorem toNat_maxMessageSize (config : Config) (size : UInt64) :
    (config.withMaxMessageSize size).maxMessageSize.toNat = max size.toNat 125 := by
  have hcontrol : WebSocket.maxControlPayload.toNat = 125 := rfl
  show (if size ≤ WebSocket.maxControlPayload then WebSocket.maxControlPayload else size).toNat = _
  split
  next hle =>
    rw [UInt64.le_iff_toNat_le, hcontrol] at hle
    rw [hcontrol, Nat.max_eq_right hle]
  next hle =>
    rw [UInt64.le_iff_toNat_le, hcontrol] at hle
    rw [Nat.max_eq_left (Nat.le_of_not_le hle)]

/-- Whatever limit is asked for, a control frame stays within it. -/
theorem maxControlPayload_le_maxMessageSize (config : Config) (size : UInt64) :
    WebSocket.maxControlPayload ≤ (config.withMaxMessageSize size).maxMessageSize := by
  rw [UInt64.le_iff_toNat_le, toNat_maxMessageSize]
  exact Nat.le_max_right size.toNat 125

end Config

end ServiceDirectory

/-!
# Opcodes

The four low bits of a frame's first byte say what the frame carries.  Six values have a meaning;
the other ten are reserved.
-/

namespace ServiceDirectory.WebSocket

/-- What a frame carries. -/
inductive Opcode where
  | continuation
  | text
  | binary
  | close
  | ping
  | pong
  deriving DecidableEq, Repr

namespace Opcode

/-- The wire value of an opcode. -/
def toByte : Opcode → UInt8
  | continuation => 0x0
  | text => 0x1
  | binary => 0x2
  | close => 0x8
  | ping => 0x9
  | pong => 0xA

/-- The opcode with a given wire value; a reserved value has none. -/
def ofByte? (b : UInt8) : Option Opcode :=
  if b = 0x0 then some continuation
  else if b = 0x1 then some text
  else if b = 0x2 then some binary
  else if b = 0x8 then some close
  else if b = 0x9 then some ping
  else if b = 0xA then some pong
  else none

/-- Control frames steer the connection: they are short and come in one piece. -/
def isControl : Opcode → Bool
  | close | ping | pong => true
  | continuation | text | binary => false

/-- The name an opcode goes by in error texts. -/
def name : Opcode → String
  | continuation => "Continuation"
  | text => "Text"
  | binary => "Binary"
  | close => "Close"
  | ping => "Ping"
  | pong => "Pong"

theorem ofByte?_toByte (op : Opcode) : ofByte? op.toByte = some op := by
  cases op <;> rfl

theorem toByte_of_ofByte? {b : UInt8} {op : Opcode} (h : ofByte? b = some op) : op.toByte = b := by
  simp only [ofByte?] at h
  repeat' split at h
  all_goals first | (obtain rfl := Option.some.inj h; simp_all [toByte]) | simp at h

theorem toByte_lt (op : Opcode) : op.toByte.toNat < 16 := by
  cases op <;> decide

end Opcode

end ServiceDirectory.WebSocket

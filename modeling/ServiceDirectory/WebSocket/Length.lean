import ServiceDirectory.Bytes

/-!
# Payload lengths

The length of a payload follows the first byte of a frame, in one of three forms: up to 125 in the
second byte itself, or in the two or the eight bytes after it, announced there by 126 or 127.  The
high bit of the second byte says whether the payload is masked.  A writer takes the shortest form
that holds the length; a reader takes any of the three.
-/

namespace ServiceDirectory.WebSocket

/-- Where the length of a payload stands. -/
inductive LengthForm where
  /-- In the second byte of the frame. -/
  | inSecondByte
  /-- In two bytes after it. -/
  | inTwoBytes
  /-- In eight bytes after it. -/
  | inEightBytes
  deriving DecidableEq, Repr

namespace LengthForm

/-- How many bytes the length takes beyond the second byte. -/
def extension : LengthForm → Nat
  | inSecondByte => 0
  | inTwoBytes => 2
  | inEightBytes => 8

/-- The form announced by the low seven bits of the second byte. -/
def announcedBy (low : UInt8) : LengthForm :=
  if low = 126 then inTwoBytes else if low = 127 then inEightBytes else inSecondByte

/-- The shortest form that holds a length. -/
def shortest (length : Nat) : LengthForm :=
  if length < 126 then inSecondByte else if length ≤ 0xFFFF then inTwoBytes else inEightBytes

/-- A length written in a given form; `flag` is the high bit of the second byte. -/
def write (form : LengthForm) (flag : UInt8) (length : Nat) : Bytes :=
  match form with
  | inSecondByte => [flag ||| UInt8.ofNat length]
  | inTwoBytes => (flag ||| 126) :: BigEndian.ofNat 2 length
  | inEightBytes => (flag ||| 127) :: BigEndian.ofNat 8 length

/-- The length that the low seven bits of the second byte and the bytes after it tell, or nothing
while some of the bytes are still to come. -/
def read? (low : UInt8) (after : Bytes) : Option UInt64 :=
  match announcedBy low with
  | inSecondByte => some low.toUInt64
  | form => (Bytes.split? form.extension after).map fun digits =>
      UInt64.ofNat (BigEndian.toNat digits.1)

end LengthForm

end ServiceDirectory.WebSocket

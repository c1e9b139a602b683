import ServiceDirectory.Bytes

/-!
# Base64

Three bytes are written as four digits to the base 64; one or two bytes at the end are written as
two or three digits and padded with `=`.  The reader takes exactly what the writer produces: the
padding has to be there, and the bits of the last digit that belong to no byte have to be zero.
-/

namespace ServiceDirectory.Base64

/-- The digits, in the order of their values. -/
def alphabet : List Char :=
  "ABCDEFGHIJKLMNOPQRSTUVWXYZabcdefghijklmnopqrstuvwxyz0123456789+/".toList

/-- The digit with a value below 64. -/
def digit (value : Nat) : Char := alphabet.getD value '='

/-- The value of a digit. -/
def value? (c : Char) : Option Nat := alphabet.findIdx? (· == c)

/-- Bytes written in base 64. -/
def encode : Bytes → List Char
  | [] => []
  | [a] => [digit (a.toNat / 4), digit (a.toNat % 4 * 16), '=', '=']
  | [a, b] =>
    [digit (a.toNat / 4), digit (a.toNat % 4 * 16 + b.toNat / 16), digit (b.toNat % 16 * 4), '=']
  | a :: b :: c :: rest =>
    digit (a.toNat / 4) :: digit (a.toNat % 4 * 16 + b.toNat / 16) ::
      digit (b.toNat % 16 * 4 + c.toNat / 64) :: digit (c.toNat % 64) :: encode rest

/-- The byte in two digits, of which the last four bits are not in use. -/
def lastOne? (x y : Char) : Option Bytes := do
  let x ← value? x
  let y ← value? y
  if y % 16 = 0 then some [UInt8.ofNat (x * 4 + y / 16)] else none

/-- The two bytes in three digits, of which the last two bits are not in use. -/
def lastTwo? (x y z : Char) : Option Bytes := do
  let x ← value? x
  let y ← value? y
  let z ← value? z
  if z % 4 = 0 then
    some [UInt8.ofNat (x * 4 + y / 16), UInt8.ofNat (y % 16 * 16 + z / 4)]
  else none

/-- The bytes with a given written form. -/
def decode? : List Char → Option Bytes
  | [] => some []
  | [x, y, z, w] =>
    if w = '=' then if z = '=' then lastOne? x y else lastTwo? x y z
    else three? x y z w
  | x :: y :: z :: w :: rest => do
    let front ← three? x y z w
    let back ← decode? rest
    some (front ++ back)
  | _ => none
where
  /-- The three bytes in four digits. -/
  three? (x y z w : Char) : Option Bytes := do
    let x ← value? x
    let y ← value? y
    let z ← value? z
    let w ← value? w
    some [UInt8.ofNat (x * 4 + y / 16), UInt8.ofNat (y % 16 * 16 + z / 4),
      UInt8.ofNat (z % 4 * 64 + w)]

end ServiceDirectory.Base64

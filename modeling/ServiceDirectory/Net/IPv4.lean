import ServiceDirectory.Text.Decimal

/-!
# IPv4 addresses

Four decimal numbers below 256 with points between them, without needless zeros in front.
-/

namespace ServiceDirectory.Net

/-- Four numbers below 256. -/
structure IPv4 where
  a : UInt8
  b : UInt8
  c : UInt8
  d : UInt8
  deriving DecidableEq, Repr

namespace IPv4

/-- The four numbers in order. -/
def octets (address : IPv4) : List UInt8 := [address.a, address.b, address.c, address.d]

/-- A number below 256 in one to three digits, without needless zeros in front. -/
def octet? (digits : List Char) : Option UInt8 :=
  let value := Text.valueUpTo 256 digits
  if digits ≠ [] ∧ digits.length ≤ 3 ∧ digits.all Char.isDigit ∧
      (digits.head? = some '0' → digits.length = 1) ∧ value < 256 then
    some (UInt8.ofNat value)
  else none

/-- The address with a given written form. -/
def read? (text : List Char) : Option IPv4 :=
  match (text.splitOn '.').mapM octet? with
  | some [a, b, c, d] => some ⟨a, b, c, d⟩
  | _ => none

/-- The written form. -/
def write (address : IPv4) : List Char :=
  ['.'].intercalate (address.octets.map fun o => Nat.toDigits 10 o.toNat)

end IPv4

end ServiceDirectory.Net

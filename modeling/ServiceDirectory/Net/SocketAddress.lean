import ServiceDirectory.Net.IPv6

/-!
# Socket addresses

Where a server listens: an IP address and a port, the IPv6 address in brackets and with the number of
its zone behind a percent sign where that is not 0.
-/

namespace ServiceDirectory.Net

/-- An IP address and a port. -/
inductive SocketAddress where
  | v4 (address : IPv4) (port : UInt16)
  | v6 (address : IPv6) (zone : UInt32) (port : UInt16)
  deriving DecidableEq, Repr

namespace SocketAddress

/-- A number below a bound in decimal digits. -/
def number? (bound : Nat) (digits : List Char) : Option Nat :=
  let value := Text.valueUpTo bound digits
  if digits ≠ [] ∧ digits.all Char.isDigit ∧ value < bound then some value else none

/-- The IPv6 address and the zone between brackets. -/
def readZoned? (text : List Char) : Option (IPv6 × UInt32) :=
  match Text.cutAtFirst '%' text with
  | none => (IPv6.read? text).map (·, 0)
  | some (address, zone) => do
    let address ← IPv6.read? address
    let zone ← number? UInt32.size zone
    some (address, UInt32.ofNat zone)

/-- The socket address with a given written form. -/
def read? (text : List Char) : Option SocketAddress := do
  let (host, port) ← Text.cutAtLast ':' text
  let port ← number? UInt16.size port
  if host.head? = some '[' ∧ host.getLast? = some ']' then
    let (address, zone) ← readZoned? (host.drop 1).dropLast
    some (.v6 address zone (UInt16.ofNat port))
  else
    let address ← IPv4.read? host
    some (.v4 address (UInt16.ofNat port))

/-- The written form. -/
def write : SocketAddress → List Char
  | v4 address port => address.write ++ ':' :: Nat.toDigits 10 port.toNat
  | v6 address zone port =>
    '[' :: address.write ++ (if zone = 0 then [] else '%' :: Nat.toDigits 10 zone.toNat) ++
      ']' :: ':' :: Nat.toDigits 10 port.toNat

end SocketAddress

end ServiceDirectory.Net

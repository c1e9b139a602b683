import ServiceDirectory.Json

/-!
# Numbers within the binary64 range

A number that is not a 64-bit integer is held as a binary64 float, and one that would overflow to
infinity is refused.  The value is formed from at most 64 bits of significant digits: the digits are
rounded to binary64, the power of ten is, and so is their product, always to nearest and ties to
even.  Overflow is thus a comparison of exact natural numbers.
-/

namespace ServiceDirectory.Json

/-- The binary64 number nearest to a natural number, ties to even, where the exponent is not
bounded. -/
def nearestBinary64 (n : Nat) : Nat :=
  if n < 1 <<< 53 then n
  else
    let unit := 1 <<< (n.log2 - 52)
    let quotient := n / unit
    let twice := 2 * (n % unit)
    if twice < unit ∨ (twice = unit ∧ quotient % 2 = 0) then quotient * unit
    else (quotient + 1) * unit

/-- The least number that rounds to infinity. -/
def overflowBound : Nat := 1 <<< 1024 - 1 <<< 970

/-- `significand` times ten to the `exponent` overflows binary64. -/
def Overflows (significand : Nat) (exponent : Int) : Prop :=
  significand ≠ 0 ∧
    (308 < exponent ∨
      (0 ≤ exponent ∧
        overflowBound ≤ nearestBinary64 significand * nearestBinary64 (Nat.pow 10 exponent.toNat)))

instance (significand : Nat) (exponent : Int) : Decidable (Overflows significand exponent) :=
  if h : significand = 0 then .isFalse (by simp [Overflows, h])
  else if h' : 308 < exponent then .isTrue ⟨h, .inl h'⟩
  else decidable_of_iff
    (0 ≤ exponent ∧
      overflowBound ≤ nearestBinary64 significand * nearestBinary64 (Nat.pow 10 exponent.toNat))
    (by simp [Overflows, h, h'])

/-- Take digits into a significand as long as it stays below 2^64; what is left of the digits comes
second. -/
def takeDigits (significand : Nat) : List Char → Nat × List Char
  | [] => (significand, [])
  | c :: digits =>
    let next := 10 * significand + (c.toNat - '0'.toNat)
    if next < UInt64.size then takeDigits next digits else (significand, c :: digits)

/-- An integer that fits 64 bits.  Minus zero has no integer of its own. -/
def integer? (negative : Bool) (magnitude : Nat) : Option Int :=
  if negative then if 0 < magnitude ∧ magnitude ≤ 1 <<< 63 then some (-magnitude) else none
  else if magnitude < UInt64.size then some magnitude else none

/-- The number with a sign, the digits before and after the point and the power of ten behind them,
where the last two need not be there; a number that overflows has none. -/
def Number.ofParts? (negative : Bool) (whole : List Char) (fraction : Option (List Char))
    (power : Option Int) : Option Number :=
  let (significand, left) := takeDigits 0 whole
  match fraction, power, left, integer? negative significand with
  | none, none, [], some value => some (.integer value)
  | _, _, _, _ =>
    let digits := fraction.getD []
    let (significand, unused) := takeDigits significand digits
    let exponent : Int := left.length - (digits.length - unused.length) + power.getD 0
    if Overflows significand exponent then none
    else some (.floating negative significand exponent)

end ServiceDirectory.Json

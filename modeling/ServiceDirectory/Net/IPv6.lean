import ServiceDirectory.Bytes
import ServiceDirectory.Net.IPv4
import ServiceDirectory.Text.Cut
import ServiceDirectory.Text.Hex

/-!
# IPv6 addresses

Eight groups of one to four hexadecimal digits with colons between them.  One run of zero groups, at
least one long, may be left out, which `::` shows; the last two groups may be written as an IPv4
address.  An address is written with the longest run of two or more zero groups left out, the first
of them if there are several, and as an IPv4 address behind `::ffff:` where it stands for one.
-/

namespace ServiceDirectory.Net

/-- Eight groups of 16 bits. -/
structure IPv6 where
  groups : List UInt16
  length_groups : groups.length = 8
  deriving DecidableEq, Repr

namespace IPv6

/-- A group of one to four digits. -/
def group? (digits : List Char) : Option UInt16 :=
  if digits = [] ∨ 4 < digits.length then none
  else (Hex.ofDigits? digits).map UInt16.ofNat

/-- The two groups that an IPv4 address takes. -/
def ofIPv4 (address : IPv4) : List UInt16 :=
  [UInt16.ofNat (BigEndian.toNat [address.a, address.b]),
    UInt16.ofNat (BigEndian.toNat [address.c, address.d])]

/-- Groups with colons between them, of which the last two may be an IPv4 address. -/
def groupsOf? (mayEndInIPv4 : Bool) : List (List Char) → Option (List UInt16)
  | [] => some []
  | [last] =>
    match group? last with
    | some group => some [group]
    | none => if mayEndInIPv4 then (IPv4.read? last).map ofIPv4 else none
  | digits :: more => do
    let group ← group? digits
    let groups ← groupsOf? mayEndInIPv4 more
    some (group :: groups)

/-- The groups in a text, of which there may be none. -/
def side? (mayEndInIPv4 : Bool) (text : List Char) : Option (List UInt16) :=
  if text = [] then some [] else groupsOf? mayEndInIPv4 (text.splitOn ':')

/-- The address with a given written form. -/
def read? (text : List Char) : Option IPv6 :=
  match Text.cutAt [':', ':'] text with
  | none => do
    let groups ← side? true text
    if h : groups.length = 8 then some ⟨groups, h⟩ else none
  | some (front, back) => do
    let front ← side? false front
    let back ← side? true back
    if h : front.length + back.length ≤ 7 then
      some ⟨front ++ List.replicate (8 - front.length - back.length) 0 ++ back, by simp; omega⟩
    else none

/-- The start and the length of the first longest run of zeros: `start` and `length` are those of the
best run so far, and `current` is the length of the run that ends at position `i`. -/
def longestRun (i current start length : Nat) : List UInt16 → Nat × Nat
  | [] => (start, length)
  | group :: groups =>
    if group = 0 then
      if length < current + 1 then longestRun (i + 1) (current + 1) (i - current) (current + 1) groups
      else longestRun (i + 1) (current + 1) start length groups
    else longestRun (i + 1) 0 start length groups

/-- Groups with colons between them. -/
def writeGroups (groups : List UInt16) : List Char :=
  [':'].intercalate (groups.map fun g => Nat.toDigits 16 g.toNat)

/-- The written form. -/
def write (address : IPv6) : List Char :=
  match address.groups with
  | [0, 0, 0, 0, 0, 0xFFFF, high, low] =>
    "::ffff:".toList ++
      IPv4.write ⟨(high >>> 8).toUInt8, high.toUInt8, (low >>> 8).toUInt8, low.toUInt8⟩
  | groups =>
    let (start, length) := longestRun 0 0 0 0 groups
    if 1 < length then
      writeGroups (groups.take start) ++ ':' :: ':' :: writeGroups (groups.drop (start + length))
    else writeGroups groups

end IPv6

end ServiceDirectory.Net

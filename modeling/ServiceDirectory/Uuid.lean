import ServiceDirectory.Text.Ascii
import ServiceDirectory.Text.Hex

/-!
# Unique identifiers

An identifier is 128 bits.  It is written as 32 lower-case digits in five groups of 8, 4, 4, 4 and 12
with hyphens between them.  Requests have to use this form; stored entries may be read from any of
the usual forms.
-/

namespace ServiceDirectory

/-- A universally unique identifier. -/
structure Uuid where
  bits : BitVec 128
  deriving DecidableEq, Repr

namespace Uuid

/-- The lengths of the groups. -/
def groupLengths : List Nat := [8, 4, 4, 4, 12]

/-- A list cut into pieces of given lengths. -/
def pieces : List Nat → List α → List (List α)
  | [], _ => []
  | n :: lengths, xs => xs.take n :: pieces lengths (xs.drop n)

/-- The written form. -/
def write (id : Uuid) : List Char :=
  ['-'].intercalate (pieces groupLengths (Hex.digits 32 id.bits.toNat))

/-- The written form, as a string. -/
def toText (id : Uuid) : String := String.ofList id.write

/-- The identifier with given digits. -/
def ofDigits? (digits : List Char) : Option Uuid :=
  if digits.length = 32 then (Hex.ofDigits? digits).map fun n => ⟨BitVec.ofNat 128 n⟩ else none

/-- The identifier written in five groups, its digits in either case. -/
def ofGroups? (text : List Char) : Option Uuid :=
  let groups := text.splitOn '-'
  if groups.map List.length = groupLengths then ofDigits? groups.flatten else none

/-- The identifier with a given written form: five groups, its digits in lower case. -/
def read? (text : List Char) : Option Uuid :=
  if text.all fun c => c = '-' || (Hex.lowerValue? c).isSome then ofGroups? text else none

/-- What may stand before the five groups, its letters in either case. -/
def urnMark : List Char := "urn:uuid:".toList

/-- The identifier in any of the usual forms: digits alone, five groups, five groups in braces, or
five groups behind the mark. -/
def readAnyForm? (text : List Char) : Option Uuid :=
  if text.head? = some '\x7b' ∧ text.getLast? = some '\x7d' then ofGroups? (text.drop 1).dropLast
  else if Text.EqIgnoringCase (text.take urnMark.length) urnMark then
    ofGroups? (text.drop urnMark.length)
  else if text.length = 32 then ofDigits? text
  else ofGroups? text

end Uuid

end ServiceDirectory

import ServiceDirectory.Json
import ServiceDirectory.Text.Hex

/-!
# Writing JSON

The compact form: no blanks, members in the order they have, and escapes only for the quote, the
backslash and the control characters.  The control characters that have a letter of their own are
written with it and the others as four digits in lower case.
-/

namespace ServiceDirectory.Json

/-- A character as it is written in a string. -/
def writeChar (c : Char) : List Char :=
  if c = '"' then ['\\', '"']
  else if c = '\\' then ['\\', '\\']
  else if c = '\x08' then ['\\', 'b']
  else if c = '\x0c' then ['\\', 'f']
  else if c = '\n' then ['\\', 'n']
  else if c = '\r' then ['\\', 'r']
  else if c = '\t' then ['\\', 't']
  else if c.toNat < 0x20 then '\\' :: 'u' :: Hex.digits 4 c.toNat
  else [c]

/-- A string between quotes. -/
def writeString (text : String) : List Char :=
  '"' :: text.toList.flatMap writeChar ++ ['"']

/-- An integer in decimal digits. -/
def writeInt : Int → List Char
  | .ofNat n => Nat.toDigits 10 n
  | .negSucc n => '-' :: Nat.toDigits 10 (n + 1)

/-- A number. -/
def writeNumber : Number → List Char
  | .integer value => writeInt value
  | .floating negative significand exponent =>
    (if negative then ['-'] else []) ++ Nat.toDigits 10 significand ++ 'e' :: writeInt exponent

mutual

/-- A value in compact form, in characters. -/
def write : Json → List Char
  | .null => ['n', 'u', 'l', 'l']
  | .bool true => ['t', 'r', 'u', 'e']
  | .bool false => ['f', 'a', 'l', 's', 'e']
  | .number value => writeNumber value
  | .string value => writeString value
  | .array items => '[' :: writeItems items
  | .object members => '\x7b' :: writeMembers members

/-- The items of an array, with the bracket that closes it. -/
def writeItems : List Json → List Char
  | [] => [']']
  | [item] => write item ++ [']']
  | item :: items => write item ++ ',' :: writeItems items

/-- The members of an object, with the bracket that closes it. -/
def writeMembers : List (String × Json) → List Char
  | [] => ['\x7d']
  | [(name, value)] => writeString name ++ ':' :: write value ++ ['\x7d']
  | (name, value) :: members =>
    writeString name ++ ':' :: write value ++ ',' :: writeMembers members

end

/-- A value in compact form. -/
def render (value : Json) : String := String.ofList (write value)

end ServiceDirectory.Json

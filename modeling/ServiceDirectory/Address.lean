import ServiceDirectory.Net.IPv6
import ServiceDirectory.Text.Ascii
import ServiceDirectory.Text.Cut
import ServiceDirectory.Text.Decimal

/-!
# Addresses of services

Where a service is reached: `[scheme://]host:port`.  The host is an IPv6 address in brackets, an IPv4
address or a name; the scheme is kept in lower case and the host as it was written.
-/

namespace ServiceDirectory

/-- An address of a service.  An IPv6 host stands without its brackets. -/
structure Address where
  scheme : Option String
  host : String
  port : UInt16
  deriving DecidableEq, Repr

namespace Address

/-! ## The parts -/

/-- A letter, then letters, digits, `+`, `-` and `.`. -/
def IsScheme (text : List Char) : Prop :=
  ∃ c ∈ text.head?, c.isAlpha ∧
    ∀ c ∈ text.tail, c.isAlphanum ∨ c = '+' ∨ c = '-' ∨ c = '.'

instance (text : List Char) : Decidable (IsScheme text) := by
  unfold IsScheme; infer_instance

/-- A part of a name: 1 to 63 letters, digits and hyphens, with no hyphen at either end. -/
def IsLabel (text : List Char) : Prop :=
  text ≠ [] ∧ text.length ≤ 63 ∧ text.head? ≠ some '-' ∧ text.getLast? ≠ some '-' ∧
    ∀ c ∈ text, c.isAlphanum ∨ c = '-'

instance (text : List Char) : Decidable (IsLabel text) := by
  unfold IsLabel; infer_instance

/-- An IPv4 address, or a name of labels with points between them that does not look like a number.
At most 253 characters. -/
def IsHost (text : List Char) : Prop :=
  text ≠ [] ∧ text.length ≤ 253 ∧
    ((Net.IPv4.read? text).isSome ∨
      (¬ (∀ c ∈ text, c.isDigit ∨ c = '.') ∧ ∀ label ∈ text.splitOn '.', IsLabel label))

instance (text : List Char) : Decidable (IsHost text) := by
  unfold IsHost; infer_instance

/-- A port from 1 to 65535, with any number of zeros in front. -/
def port? (digits : List Char) : Option UInt16 :=
  let value := Text.valueUpTo UInt16.size digits
  if digits ≠ [] ∧ (∀ c ∈ digits, c.isDigit) ∧ 0 < value ∧ value < UInt16.size then
    some (UInt16.ofNat value)
  else none

/-! ## Reading and writing -/

/-- The scheme and what follows it: up to the first `://`, when there is one. -/
def readScheme? (text : List Char) : Option (Option String × List Char) :=
  match Text.cutAt [':', '/', '/'] text with
  | none => some (none, text)
  | some (scheme, rest) =>
    if IsScheme scheme then some (some (String.ofList (Text.lowerCase scheme)), rest) else none

/-- The host and the digits of the port: an IPv6 address ends at the first closing bracket, any other
host at the last colon. -/
def readHost? (text : List Char) : Option (List Char × List Char) :=
  match text with
  | '[' :: bracketed => do
    let (host, after) ← Text.cutAtFirst ']' bracketed
    let _ ← Net.IPv6.read? host
    match after with
    | ':' :: port => some (host, port)
    | _ => none
  | _ => do
    let (host, port) ← Text.cutAtLast ':' text
    if IsHost host then some (host, port) else none

/-- The address with a given written form. -/
def read? (text : List Char) : Option Address := do
  let (scheme, rest) ← readScheme? text
  let (host, port) ← readHost? rest
  let port ← port? port
  some { scheme, host := String.ofList host, port }

/-- The written form.  A host that holds a colon stands in brackets. -/
def write (address : Address) : List Char :=
  (match address.scheme with
    | some scheme => scheme.toList ++ [':', '/', '/']
    | none => []) ++
  (if ':' ∈ address.host.toList then '[' :: address.host.toList ++ [']']
    else address.host.toList) ++
  ':' :: Nat.toDigits 10 address.port.toNat

/-- The written form, as a string. -/
def toText (address : Address) : String := String.ofList address.write

/-- What is told of a text that is no address. -/
def invalidMessage : String := "invalid address"

end Address

end ServiceDirectory

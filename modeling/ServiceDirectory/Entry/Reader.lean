import ServiceDirectory.Entry
import ServiceDirectory.Json.Reader

/-!
# Reading stored entries

Entries are read back from the text they are written as.  The reader is more liberal than the check
of drafts: it takes an identifier in any form, any topic and any name, members in any order with
others between them, the five values alone in an array, and a kind as an object whose only member has
the kind for its name and null for its value.  A member that is there twice is refused, as is one
that is missing.

The text is judged from front to back and the first fault is reported.  Members that are passed over
are only checked for their form: neither the size of their numbers nor the pairing of their
surrogates matters, nor how deep they are nested.
-/

namespace ServiceDirectory.Entry

open Json (Fault nextItem readString readNumber readDigits skipBlanks expectColon expectLetters)

/-! ## Passing over a value -/

/-- The digits of a number passed over, of which there has to be one. -/
def skipDigits (text : List Char) : Except Fault (List Char) :=
  match text with
  | [] => .error .malformed
  | c :: _ => if c.isDigit then .ok (text.dropWhile Char.isDigit) else .error .malformed

/-- An exponent passed over, when there is one. -/
def skipExponent (text : List Char) : Except Fault (List Char) :=
  match text with
  | [] => .ok []
  | c :: rest =>
    if c = 'e' ∨ c = 'E' then skipDigits (Json.readExponentSign rest).2 else .ok text

/-- What follows a number, less its sign. -/
def skipNumber (text : List Char) : Except Fault (List Char) := do
  let rest ← skipDigits text
  if text.head? = some '0' ∧ rest.length + 1 ≠ text.length then .error .malformed
  else match rest with
    | '.' :: rest => do
      let rest ← skipDigits rest
      skipExponent rest
    | _ => skipExponent rest

/-- What follows a string, less its opening quote. -/
def skipString : List Char → Except Fault (List Char)
  | [] => .error .truncated
  | c :: text =>
    if c = '"' then .ok text
    else if c = '\\' then
      match text with
      | [] => .error .truncated
      | e :: text =>
        if e = 'u' then
          match text with
          | h₁ :: h₂ :: h₃ :: h₄ :: text =>
            match Hex.ofDigits? [h₁, h₂, h₃, h₄] with
            | none => .error .malformed
            | some _ => skipString text
          | _ => .error (Json.shortEscapeFault text)
        else if (Json.escaped? e).isSome then skipString text
        else .error .malformed
    else if c.toNat < 0x20 then .error .malformed
    else skipString text

/-- A member passed over: its name, a colon and its value. -/
def skipMember (value : List Char → Except Fault (Unit × List Char)) (text : List Char) :
    Except Fault (Unit × List Char) :=
  match text with
  | [] => .error .truncated
  | c :: rest =>
    if c = '"' then do
      let rest ← skipString rest
      let rest ← expectColon rest
      value rest
    else .error .malformed

/-- What follows a value.  Each level of nesting takes a character, so it is no deeper than there were
characters at the start; `clock` holds these and gives up one on each level. -/
def skipWithin (clock text : List Char) : Except Fault (Unit × List Char) :=
  match skipBlanks text with
  | [] => .error .truncated
  | c :: rest =>
    if c = '[' then
      match clock with
      | [] => .error .malformed
      | _ :: clock => do
        let (_, rest) ← Json.readSequence ']' (skipWithin clock) rest
        .ok ((), rest)
    else if c = '\x7b' then
      match clock with
      | [] => .error .malformed
      | _ :: clock => do
        let (_, rest) ← Json.readSequence '\x7d' (skipMember (skipWithin clock)) rest
        .ok ((), rest)
    else if c = '"' then (skipString rest).map ((), ·)
    else if c = 'n' then (expectLetters ['u', 'l', 'l'] rest).map ((), ·)
    else if c = 't' then (expectLetters ['r', 'u', 'e'] rest).map ((), ·)
    else if c = 'f' then (expectLetters ['a', 'l', 's', 'e'] rest).map ((), ·)
    else if c = '-' then (skipNumber rest).map ((), ·)
    else if c.isDigit then (skipNumber (c :: rest)).map ((), ·)
    else .error .malformed

/-- What follows a value. -/
def skipValue (text : List Char) : Except Fault (List Char) :=
  (skipWithin text text).map (·.2)

/-! ## The fields -/

/-- The fault of a result, or a mismatch where there is none. -/
def faultOr : Except Fault α → Fault
  | .error fault => fault
  | .ok _ => .mismatched

/-- The fault where a value of another type begins.  Such a value still has to be read, as far as it
is not an array or an object. -/
def wrongType : List Char → Fault
  | [] => .malformed
  | c :: rest =>
    if c = 'n' then faultOr (expectLetters ['u', 'l', 'l'] rest)
    else if c = 't' then faultOr (expectLetters ['r', 'u', 'e'] rest)
    else if c = 'f' then faultOr (expectLetters ['a', 'l', 's', 'e'] rest)
    else if c = '-' then faultOr (readNumber true rest)
    else if c.isDigit then faultOr (readNumber false (c :: rest))
    else if c = '"' then faultOr (readString rest)
    else if c = '[' ∨ c = '\x7b' then .mismatched
    else .malformed

/-- A string and the blanks before it. -/
def readText (text : List Char) : Except Fault (String × List Char) :=
  match skipBlanks text with
  | [] => .error .truncated
  | c :: rest => if c = '"' then readString rest else .error (wrongType (c :: rest))

/-- A string that stands for a value. -/
def readAs (ofText? : String → Option α) (text : List Char) : Except Fault (α × List Char) := do
  let (value, rest) ← readText text
  match ofText? value with
  | some value => .ok (value, rest)
  | none => .error .mismatched

/-- An identifier in any form. -/
def readId (text : List Char) : Except Fault (Uuid × List Char) :=
  readAs (fun value => Uuid.readAnyForm? value.toList) text

/-- An address. -/
def readAddress (text : List Char) : Except Fault (Address × List Char) :=
  readAs (fun value => Address.read? value.toList) text

/-- Null and the blanks before it. -/
def readNull (text : List Char) : Except Fault (List Char) :=
  match skipBlanks text with
  | [] => .error .truncated
  | c :: rest =>
    if c = 'n' then expectLetters ['u', 'l', 'l'] rest else .error (wrongType (c :: rest))

/-- The end of an object and the blanks before it. -/
def expectEndOfObject (text : List Char) : Except Fault (List Char) :=
  match skipBlanks text with
  | [] => .error .truncated
  | c :: rest => if c = '\x7d' then .ok rest else .error .malformed

/-- The name of a kind where the name of a member has to stand, which is a string. -/
def readKindName (text : List Char) : Except Fault (EndpointKind × List Char) :=
  match skipBlanks text with
  | [] => .error .truncated
  | c :: rest => if c = '"' then readAs EndpointKind.ofName? (c :: rest) else .error .malformed

/-- A kind: its name, or an object of its name and null. -/
def readKind (text : List Char) : Except Fault (EndpointKind × List Char) :=
  match skipBlanks text with
  | [] => .error .truncated
  | c :: rest =>
    if c = '"' then readAs EndpointKind.ofName? (c :: rest)
    else if c = '\x7b' then do
      let (kind, rest) ← readKindName rest
      let rest ← expectColon rest
      let rest ← readNull rest
      let rest ← expectEndOfObject rest
      .ok (kind, rest)
    else .error .malformed

/-! ## Entries -/

/-- The fields read so far. -/
structure Fields where
  id : Option Uuid := none
  name : Option String := none
  topic : Option String := none
  kind : Option EndpointKind := none
  address : Option Address := none

/-- The entry, once every field is there. -/
def Fields.entry? (fields : Fields) : Option Entry := do
  let id ← fields.id
  let name ← fields.name
  let topic ← fields.topic
  let kind ← fields.kind
  let address ← fields.address
  some { id, name, topic, kind, address }

/-- The value of a field that was not there before, with the colon before it. -/
def readField (seen : Option α) (read : List Char → Except Fault (α × List Char))
    (text : List Char) : Except Fault (Option α × List Char) :=
  if seen.isSome then .error .mismatched
  else do
    let rest ← expectColon text
    let (value, rest) ← read rest
    .ok (some value, rest)

/-- One member, added to the fields read so far. -/
def readMember (fields : Fields) (text : List Char) : Except Fault (Fields × List Char) :=
  match text with
  | [] => .error .truncated
  | c :: rest =>
    if c = '"' then do
      let (name, rest) ← readString rest
      if name = "id" then do
        let (id, rest) ← readField fields.id readId rest
        .ok ({ fields with id }, rest)
      else if name = "name" then do
        let (name, rest) ← readField fields.name readText rest
        .ok ({ fields with name }, rest)
      else if name = "topic" then do
        let (topic, rest) ← readField fields.topic readText rest
        .ok ({ fields with topic }, rest)
      else if name = "type" then do
        let (kind, rest) ← readField fields.kind readKind rest
        .ok ({ fields with kind }, rest)
      else if name = "address" then do
        let (address, rest) ← readField fields.address readAddress rest
        .ok ({ fields with address }, rest)
      else do
        let rest ← expectColon rest
        let rest ← skipValue rest
        .ok (fields, rest)
    else .error .malformed

/-- The rest of an entry written as an object.  As every member takes a character, there are no more
rounds than there were characters at the start; `clock` holds these and gives up one in each round. -/
def readMembers : (clock : List Char) → (first : Bool) → Fields → List Char →
    Except Fault (Fields × List Char)
  | [], _, _, _ => .error .truncated
  | _ :: clock, first, fields, text =>
    match nextItem '\x7d' first text with
    | .error fault => .error fault
    | .ok (.inr rest) => .ok (fields, rest)
    | .ok (.inl text) =>
      match readMember fields text with
      | .error fault => .error fault
      | .ok (fields, rest) => readMembers clock false fields rest

/-- The next value of an entry written as an array. -/
def readNext (first : Bool) (read : List Char → Except Fault (α × List Char))
    (text : List Char) : Except Fault (α × List Char) := do
  match ← nextItem ']' first text with
  | .inl text => read text
  | .inr _ => .error .mismatched

/-- The rest of an entry written as an array. -/
def readValues (text : List Char) : Except Fault (Entry × List Char) := do
  let (id, rest) ← readNext true readId text
  let (name, rest) ← readNext false readText rest
  let (topic, rest) ← readNext false readText rest
  let (kind, rest) ← readNext false readKind rest
  let (address, rest) ← readNext false readAddress rest
  match skipBlanks rest with
  | [] => .error .truncated
  | c :: rest =>
    if c = ']' then .ok ({ id, name, topic, kind, address }, rest) else .error .malformed

/-- An entry and the blanks before it. -/
def read (text : List Char) : Except Fault (Entry × List Char) :=
  match skipBlanks text with
  | [] => .error .truncated
  | c :: rest =>
    if c = '[' then readValues rest
    else if c = '\x7b' then do
      let (fields, rest) ← readMembers rest true {} rest
      match fields.entry? with
      | some entry => .ok (entry, rest)
      | none => .error .mismatched
    else .error (wrongType (c :: rest))

/-- The entry that a whole text holds. -/
def parse (text : String) : Except Fault Entry := do
  let (entry, rest) ← read text.toList
  if skipBlanks rest = [] then .ok entry else .error .malformed

end ServiceDirectory.Entry

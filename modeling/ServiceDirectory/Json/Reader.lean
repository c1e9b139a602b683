import ServiceDirectory.Json.Number
import ServiceDirectory.Text.Decimal
import ServiceDirectory.Text.Hex
import ServiceDirectory.Utf8

/-!
# Reading JSON

A strict reader.  It refuses what the standard of JSON refuses, and beyond that numbers that
overflow binary64, escapes that stand for half a surrogate pair, and values nested deeper than a
limit.  Each reader takes its value from the front of the characters and returns it with the
characters that follow.

A fault tells whether the text ended too early or went wrong; readers of particular values add that
the text is fine and the value is not the one asked for.
-/

namespace ServiceDirectory.Json

/-- Why a text could not be read. -/
inductive Fault where
  /-- The text ended inside a value. -/
  | truncated
  /-- The text is not JSON. -/
  | malformed
  /-- The text is JSON up to here, but not the value asked for. -/
  | mismatched
  deriving DecidableEq, Repr

/-! ## Blanks and words -/

/-- A character that may stand between the tokens. -/
def isBlank (c : Char) : Bool := c = ' ' || c = '\n' || c = '\t' || c = '\r'

/-- A text without the blanks at its front. -/
def skipBlanks (text : List Char) : List Char := text.dropWhile isBlank

/-- What follows the given letters. -/
def expectLetters : List Char → List Char → Except Fault (List Char)
  | [], text => .ok text
  | _ :: _, [] => .error .truncated
  | w :: letters, c :: text => if c = w then expectLetters letters text else .error .malformed

/-! ## Strings -/

/-- The character that a one-letter escape stands for. -/
def escaped? (c : Char) : Option Char :=
  match c with
  | '"' => some '"'
  | '\\' => some '\\'
  | '/' => some '/'
  | 'b' => some '\x08'
  | 'f' => some '\x0c'
  | 'n' => some '\n'
  | 'r' => some '\r'
  | 't' => some '\t'
  | _ => none

/-- A code unit that opens a surrogate pair. -/
def IsHighSurrogate (unit : Nat) : Prop := 0xD800 ≤ unit ∧ unit < 0xDC00

/-- A code unit that closes a surrogate pair. -/
def IsLowSurrogate (unit : Nat) : Prop := 0xDC00 ≤ unit ∧ unit < 0xE000

instance (unit : Nat) : Decidable (IsHighSurrogate unit) := by
  unfold IsHighSurrogate; infer_instance

instance (unit : Nat) : Decidable (IsLowSurrogate unit) := by
  unfold IsLowSurrogate; infer_instance

/-- The character of a surrogate pair. -/
def ofSurrogates (high low : Nat) : Char :=
  Char.ofNat ((high - 0xD800) * 0x400 + (low - 0xDC00) + 0x10000)

/-- The fault where fewer than four characters follow: an escape takes four bytes, which may be there
in fewer characters. -/
def shortEscapeFault (text : List Char) : Fault :=
  if (Utf8.encode text).length < 4 then .truncated else .malformed

/-- The fault where an opening surrogate is not followed by an escape of four digits. -/
def loneSurrogateFault : List Char → Fault
  | [] => .truncated
  | ['\\'] => .truncated
  | '\\' :: 'u' :: text => shortEscapeFault text
  | _ => .malformed

/-- The rest of a string after its opening quote, read onto the characters before, which stand in
reverse. -/
def stringOnto (read : List Char) : List Char → Except Fault (String × List Char)
  | [] => .error .truncated
  | c :: text =>
    if c = '"' then .ok (String.ofList read.reverse, text)
    else if c = '\\' then
      match text with
      | [] => .error .truncated
      | e :: text =>
        if e = 'u' then
          match text with
          | h₁ :: h₂ :: h₃ :: h₄ :: text =>
            match Hex.ofDigits? [h₁, h₂, h₃, h₄] with
            | none => .error .malformed
            | some unit =>
              if IsLowSurrogate unit then .error .malformed
              else if IsHighSurrogate unit then
                match text with
                | s :: u :: l₁ :: l₂ :: l₃ :: l₄ :: rest =>
                  if s = '\\' ∧ u = 'u' then
                    match Hex.ofDigits? [l₁, l₂, l₃, l₄] with
                    | none => .error .malformed
                    | some low =>
                      if IsLowSurrogate low then stringOnto (ofSurrogates unit low :: read) rest
                      else .error .malformed
                  else .error .malformed
                | _ => .error (loneSurrogateFault text)
              else stringOnto (Char.ofNat unit :: read) text
          | _ => .error (shortEscapeFault text)
        else match escaped? e with
          | some c => stringOnto (c :: read) text
          | none => .error .malformed
    else if c.toNat < 0x20 then .error .malformed
    else stringOnto (c :: read) text

/-- The rest of a string after its opening quote. -/
def readString (text : List Char) : Except Fault (String × List Char) := stringOnto [] text

/-! ## Numbers -/

/-- The digits at the front, of which there has to be one. -/
def readDigits (text : List Char) : Except Fault (List Char × List Char) :=
  match text with
  | [] => .error .truncated
  | c :: _ =>
    if c.isDigit then .ok (text.takeWhile Char.isDigit, text.dropWhile Char.isDigit)
    else .error .malformed

/-- The digits before the point: a zero stands alone. -/
def readWhole (text : List Char) : Except Fault (List Char × List Char) := do
  let (digits, rest) ← readDigits text
  if digits.head? = some '0' ∧ digits.length ≠ 1 then .error .malformed else .ok (digits, rest)

/-- The digits after the point, when there is one. -/
def readFraction (text : List Char) : Except Fault (Option (List Char) × List Char) :=
  match text with
  | '.' :: rest => do
    let (digits, rest) ← readDigits rest
    .ok (some digits, rest)
  | _ => .ok (none, text)

/-- The sign of an exponent: negative or not. -/
def readExponentSign : List Char → Bool × List Char
  | '+' :: rest => (false, rest)
  | '-' :: rest => (true, rest)
  | text => (false, text)

/-- From here on exponents are not told apart: such a power of ten overflows or vanishes, whatever the
digits before it. -/
def exponentCap : Nat := 1 <<< 31

/-- The exponent, when there is one. -/
def readExponent (text : List Char) : Except Fault (Option Int × List Char) :=
  match text with
  | [] => .ok (none, [])
  | c :: rest =>
    if c = 'e' ∨ c = 'E' then do
      let (negative, rest) := readExponentSign rest
      let (digits, rest) ← readDigits rest
      let magnitude : Int := Text.valueUpTo exponentCap digits
      .ok (some (if negative then -magnitude else magnitude), rest)
    else .ok (none, text)

/-- The rest of a number after its sign. -/
def readNumber (negative : Bool) (text : List Char) : Except Fault (Number × List Char) := do
  let (whole, rest) ← readWhole text
  let (fraction, rest) ← readFraction rest
  let (power, rest) ← readExponent rest
  match Number.ofParts? negative whole fraction power with
  | some value => .ok (value, rest)
  | none => .error .malformed

/-! ## Sequences -/

/-- Where the next item of a sequence begins, after the blanks and the comma before it, or what
follows the sequence.  `first` tells that no item came before; `close` ends the sequence. -/
def nextItem (close : Char) (first : Bool) (text : List Char) :
    Except Fault (List Char ⊕ List Char) :=
  match skipBlanks text with
  | [] => .error .truncated
  | c :: rest =>
    if c = close then .ok (.inr rest)
    else if first then .ok (.inl (c :: rest))
    else if c = ',' then
      match skipBlanks rest with
      | [] => .error .truncated
      | d :: rest => if d = close then .error .malformed else .ok (.inl (d :: rest))
    else .error .malformed

/-- The rest of a sequence, its items read onto those before, which stand in reverse.  As every item
takes a character, there are no more rounds than there were characters at the start; `clock` holds
these and gives up one in each round. -/
def sequenceOnto (close : Char) (item : List Char → Except Fault (α × List Char)) :
    (clock : List Char) → List α → List Char → Except Fault (List α × List Char)
  | [], _, _ => .error .truncated
  | _ :: clock, read, text =>
    match nextItem close read.isEmpty text with
    | .error fault => .error fault
    | .ok (.inr rest) => .ok (read.reverse, rest)
    | .ok (.inl text) =>
      match item text with
      | .error fault => .error fault
      | .ok (a, rest) => sequenceOnto close item clock (a :: read) rest

/-- The rest of a sequence after its opening bracket. -/
def readSequence (close : Char) (item : List Char → Except Fault (α × List Char))
    (text : List Char) : Except Fault (List α × List Char) :=
  sequenceOnto close item text [] text

/-- What follows a colon and the blanks before it. -/
def expectColon (text : List Char) : Except Fault (List Char) :=
  match skipBlanks text with
  | [] => .error .truncated
  | c :: rest => if c = ':' then .ok rest else .error .malformed

/-- A member of an object: its name, a colon and its value. -/
def readMember (value : List Char → Except Fault (α × List Char)) (text : List Char) :
    Except Fault ((String × α) × List Char) :=
  match text with
  | [] => .error .truncated
  | c :: rest =>
    if c = '"' then do
      let (name, rest) ← readString rest
      let rest ← expectColon rest
      let (value, rest) ← value rest
      .ok ((name, value), rest)
    else .error .malformed

/-! ## Values -/

/-- How deep arrays and objects may be nested. -/
def maxDepth : Nat := 127

/-- A value and the blanks before it; `room` is how many more levels of nesting may be opened. -/
def readValue (room : Nat) (text : List Char) : Except Fault (Json × List Char) :=
  match skipBlanks text with
  | [] => .error .truncated
  | c :: rest =>
    if c = '[' then
      match room with
      | 0 => .error .malformed
      | room + 1 => do
        let (items, rest) ← readSequence ']' (readValue room) rest
        .ok (.array items, rest)
    else if c = '\x7b' then
      match room with
      | 0 => .error .malformed
      | room + 1 => do
        let (members, rest) ← readSequence '\x7d' (readMember (readValue room)) rest
        .ok (.object members, rest)
    else if c = '"' then do
      let (value, rest) ← readString rest
      .ok (.string value, rest)
    else if c = 'n' then do
      let rest ← expectLetters ['u', 'l', 'l'] rest
      .ok (.null, rest)
    else if c = 't' then do
      let rest ← expectLetters ['r', 'u', 'e'] rest
      .ok (.bool true, rest)
    else if c = 'f' then do
      let rest ← expectLetters ['a', 'l', 's', 'e'] rest
      .ok (.bool false, rest)
    else if c = '-' then do
      let (value, rest) ← readNumber true rest
      .ok (.number value, rest)
    else if c.isDigit then do
      let (value, rest) ← readNumber false (c :: rest)
      .ok (.number value, rest)
    else .error .malformed

/-- The value that a whole text holds, nested at most `room` levels deep. -/
def parseWithin (room : Nat) (text : List Char) : Except Fault Json := do
  let (value, rest) ← readValue room text
  if skipBlanks rest = [] then .ok value else .error .malformed

/-- The value that a whole text holds. -/
def parse? (text : String) : Option Json :=
  (parseWithin maxDepth text.toList).toOption

end ServiceDirectory.Json

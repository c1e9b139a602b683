/-!
# JSON values

An object keeps its members as they were written; where a name is repeated
the last member counts.  A number is an integer when it was written without fraction and exponent
and fits 64 bits; any other number counts as binary floating point, of which the digits and the
exponent are kept.
-/

namespace ServiceDirectory

/-- A number. -/
inductive Json.Number where
  | integer (value : Int)
  /-- `significand` times ten to the `exponent`. -/
  | floating (negative : Bool) (significand : Nat) (exponent : Int)
  deriving DecidableEq, Repr

/-- A value of JSON. -/
inductive Json where
  | null
  | bool (value : Bool)
  | number (value : Json.Number)
  | string (value : String)
  | array (items : List Json)
  | object (members : List (String × Json))
  deriving Repr

namespace Json

/-- The last of some members that goes by a name. -/
def lastMember? (name : String) (members : List (String × Json)) : Option Json :=
  members.reverse.lookup name

/-- The member of an object that goes by a name. -/
def member? (name : String) : Json → Option Json
  | object members => lastMember? name members
  | _ => none

/-- The text of a string. -/
def string? : Json → Option String
  | string value => some value
  | _ => none

/-- The names of some members, each once, in the order of their code points. -/
def names (members : List (String × Json)) : List String :=
  ((members.map (·.1)).mergeSort fun a b => decide (a ≤ b)).eraseReps

end Json

end ServiceDirectory

import ServiceDirectory.Utf8
import ServiceDirectory.Text.Ascii
import ServiceDirectory.Text.Blank
import ServiceDirectory.Text.Cut
import ServiceDirectory.Upgrade.Refusal

/-!
# Request heads

The head of an HTTP request: a request line of three words, then header lines `name: value`.  Lines
end in CR LF and empty lines among the headers carry nothing.
-/

namespace ServiceDirectory.Upgrade

/-- A request line and the headers below it, in order. -/
structure RequestHead where
  method : String
  target : String
  version : String
  headers : List (String × String)
  deriving DecidableEq, Repr

namespace RequestHead

/-- The three words of a request line. -/
def requestLine (line : List Char) : Except HeadFault (String × String × String) :=
  if line = [] then .error .emptyRequestLine
  else match Text.words line with
    | [method, target, version] =>
      .ok (String.ofList method, String.ofList target, String.ofList version)
    | _ => .error .badRequestLine

/-- The name and the value on a header line, without the blanks around them. -/
def headerLine (line : List Char) : Except HeadFault (String × String) :=
  match Text.cutAtFirst ':' line with
  | none => .error .headerWithoutColon
  | some (name, value) =>
    if Text.trim name = [] then .error .emptyHeaderName
    else .ok (String.ofList (Text.trim name), String.ofList (Text.trim value))

/-- The head with given text.  The first faulty line is reported. -/
def ofText (text : List Char) : Except HeadFault RequestHead :=
  match Text.lines text with
  | [] => .error .emptyRequestLine
  | first :: others => do
    let (method, target, version) ← requestLine first
    let headers ← (others.filter (· ≠ [])).mapM headerLine
    .ok { method, target, version, headers }

/-- The head with given bytes. -/
def ofBytes (bytes : Bytes) : Except HeadFault RequestHead :=
  match Utf8.decode? bytes with
  | none => .error .notUtf8
  | some text => ofText text

/-- A header goes by this name, in whatever case. -/
def IsNamed (name : String) (header : String × String) : Prop :=
  Text.EqIgnoringCase header.1.toList name.toList

instance (name : String) (header : String × String) : Decidable (IsNamed name header) := by
  unfold IsNamed; infer_instance

/-- The value of the first header of a name. -/
def header? (head : RequestHead) (name : String) : Option String :=
  (head.headers.find? fun header => IsNamed name header).map (·.2)

/-- The members of a list of tokens separated by commas, without the blanks around them. -/
def tokens (value : String) : List (List Char) :=
  (value.toList.splitOn ',').map Text.trim

/-- Some header of a name lists a token, in whatever case. -/
def ListsToken (head : RequestHead) (name token : String) : Prop :=
  ∃ header ∈ head.headers, IsNamed name header ∧
    ∃ t ∈ tokens header.2, Text.EqIgnoringCase t token.toList

instance (head : RequestHead) (name token : String) : Decidable (head.ListsToken name token) := by
  unfold ListsToken; infer_instance

end RequestHead

end ServiceDirectory.Upgrade

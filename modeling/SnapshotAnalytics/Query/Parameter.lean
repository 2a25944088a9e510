import SnapshotAnalytics.Json.Reading
import SnapshotAnalytics.Query.Error
import SnapshotAnalytics.Text.Search

/-!
# Query parameters

A value travels beside the text of a query, bound to a name and a type; in the text stands the
placeholder of that name and type. For reading by people a text can be shown with the values put in
place of the placeholders.
-/

namespace SnapshotAnalytics

/-- The type of a parameter. -/
inductive ParameterType where
  | string
  | float
  | date
  deriving DecidableEq

namespace ParameterType

def name : ParameterType → String
  | string => "String"
  | float => "Float64"
  | date => "Date"

def key : ParameterType → String
  | string => "string"
  | float => "float64"
  | date => "date"

def ofKey? (s : String) : Option ParameterType :=
  [string, float, date].find? (·.key == s)

end ParameterType

/-- A value bound to a name and a type. -/
structure Parameter where
  name : String
  type : ParameterType
  value : String
  deriving DecidableEq

namespace Parameter

/-! ## §1 Placeholders -/

/-- What stands for a parameter in the text of a query. -/
def placeholder (p : Parameter) : List Char :=
  '\x7b' :: p.name.toList ++ ':' :: p.type.name.toList ++ ['\x7d']

/-- A character that may occur in the name of a parameter. -/
def isNameChar (c : Char) : Bool :=
  c.isAlphanum || c == '_'

def isName (name : String) : Bool :=
  !name.isEmpty && name.toList.all isNameChar

/-! ## §2 Lists of parameters -/

/-- The parameter of a name: the first one bound to it. -/
def find? (name : String) (parameters : List Parameter) : Option Parameter :=
  parameters.find? (·.name == name)

/-- Check parameters from the first on; `bound` holds the names before them. -/
def checkFrom (bound : List String) : List Parameter → Except QueryError Unit
  | [] => .ok ()
  | p :: parameters =>
    if !isName p.name then
      .error (.invalidParameter p.name "names must be alphanumeric or underscore")
    else if bound.contains p.name then
      .error (.invalidParameter p.name "bound more than once")
    else
      checkFrom (p.name :: bound) parameters

/-- Every name is a name, and none is bound more than once. -/
def check (parameters : List Parameter) : Except QueryError Unit :=
  checkFrom [] parameters

/-- The names and values of parameters, for reading. -/
def summary (parameters : List Parameter) : String :=
  ", ".intercalate (parameters.map fun p => s!"{p.name}={p.value}")

/-! ## §3 Inlining -/

/-- A character inside a quoted literal: backslashes and quotes are escaped. -/
def escapeLiteral (c : Char) : List Char :=
  if c = '\\' then ['\\', '\\'] else if c = '\'' then ['\\', '\''] else [c]

/-- The literal of a value: numbers as they are, all else in quotes. -/
def literal (p : Parameter) : List Char :=
  match p.type with
  | .float => p.value.toList
  | .string | .date => '\'' :: p.value.toList.flatMap escapeLiteral ++ ['\'']

/-- A text with the literals in place of the placeholders, one parameter after the other. -/
def inline (parameters : List Parameter) (s : String) : String :=
  String.ofList
    (parameters.foldl (fun s p => Text.replace p.placeholder p.literal s) s.toList)

/-! ## §4 JSON -/

def toJson (p : Parameter) : Json :=
  .object [("name", .text p.name), ("param_type", .text p.type.key), ("value", .text p.value)]

def ofDraft? (d : Json.Draft) : Option Parameter := do
  match ← d.slots? ["name", "param_type", "value"] with
  | [name, type, value] =>
    return {
      name := ← Slot.required Json.Draft.text? name
      type := ← Slot.required (Json.Draft.alternative? ParameterType.ofKey?) type
      value := ← Slot.required Json.Draft.text? value }
  | _ => none

end Parameter

end SnapshotAnalytics

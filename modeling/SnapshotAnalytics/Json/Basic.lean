import SnapshotAnalytics.Data.Keyed
import SnapshotAnalytics.Json.Number
import SnapshotAnalytics.Text.Hexadecimal

/-!
# JSON values

Values and their compact text. Objects hold their members in the order in which they are written:
records in the order of their fields, cells of a result in ascending key order.
-/

namespace SnapshotAnalytics

/-- A JSON value. -/
inductive Json where
  | null
  | bool (b : Bool)
  | number (n : Json.Number)
  | text (s : String)
  | array (items : List Json)
  | object (members : List (String × Json))
  deriving Inhabited

namespace Json

/-! ## §1 Building values -/

/-- A natural number; numbers from `2 ^ 64` on do not occur. -/
def ofNat (n : Nat) : Json :=
  number (.natural (UInt64.ofNat n))

/-- An amount. What is not finite has no number and is written as null. -/
def ofAmount (x : Binary64) : Json :=
  match Number.ofBinary64? x with
  | some n => number n
  | none => null

def ofTexts (texts : List String) : Json :=
  array (texts.map text)

def ofText? : Option String → Json
  | some s => text s
  | none => null

/-- A member that is left out when there is no value. -/
def member? (key : String) : Option Json → List (String × Json)
  | some j => [(key, j)]
  | none => []

def isNull : Json → Bool
  | null => true
  | _ => false

/-! ## §2 Compact text -/

/-- A character inside a quoted text: quotes, backslashes and control characters are escaped. -/
def escape (c : Char) : List Char :=
  if c = '"' then ['\\', '"']
  else if c = '\\' then ['\\', '\\']
  else if c = '\x08' then ['\\', 'b']
  else if c = '\x0c' then ['\\', 'f']
  else if c = '\n' then ['\\', 'n']
  else if c = '\r' then ['\\', 'r']
  else if c = '\t' then ['\\', 't']
  else if c.toNat < 0x20 then '\\' :: 'u' :: '0' :: '0' :: Text.hexPair Text.lowerHexDigit c.toNat.toUInt8
  else [c]

def quote (s : String) : List Char :=
  '"' :: s.toList.flatMap escape ++ ['"']

mutual

/-- A value as compact text, without any space. -/
def chars : Json → List Char
  | null => "null".toList
  | bool true => "true".toList
  | bool false => "false".toList
  | number n => n.text
  | text s => quote s
  | array [] => ['[', ']']
  | array (item :: items) => '[' :: chars item ++ charsOfItems items ++ [']']
  | object [] => ['\x7b', '\x7d']
  | object ((key, value) :: members) =>
    '\x7b' :: quote key ++ ':' :: chars value ++ charsOfMembers members ++ ['\x7d']

/-- The items behind the first one. -/
def charsOfItems : List Json → List Char
  | [] => []
  | item :: items => ',' :: chars item ++ charsOfItems items

/-- The members behind the first one. -/
def charsOfMembers : List (String × Json) → List Char
  | [] => []
  | (key, value) :: members => ',' :: quote key ++ ':' :: chars value ++ charsOfMembers members

end

def render (j : Json) : String :=
  String.ofList j.chars

/-! ## §3 Indented text -/

/-- A new line at the given depth, two blanks for each level. -/
def newLine (depth : Nat) : List Char :=
  '\n' :: List.replicate (2 * depth) ' '

mutual

/-- A value over several lines, from the given depth on; empty arrays and objects stay in one. -/
def indented (depth : Nat) : Json → List Char
  | array (item :: items) =>
    '[' :: newLine (depth + 1) ++ indented (depth + 1) item ++ indentedItems (depth + 1) items
      ++ newLine depth ++ [']']
  | object ((key, value) :: members) =>
    '\x7b' :: newLine (depth + 1) ++ quote key ++ ':' :: ' ' :: indented (depth + 1) value
      ++ indentedMembers (depth + 1) members ++ newLine depth ++ ['\x7d']
  | null => "null".toList
  | bool b => (if b then "true" else "false").toList
  | number n => n.text
  | text s => quote s
  | array [] => ['[', ']']
  | object [] => ['\x7b', '\x7d']

/-- The items behind the first one, each on lines of its own. -/
def indentedItems (depth : Nat) : List Json → List Char
  | [] => []
  | item :: items => ',' :: newLine depth ++ indented depth item ++ indentedItems depth items

/-- The members behind the first one, each on lines of its own. -/
def indentedMembers (depth : Nat) : List (String × Json) → List Char
  | [] => []
  | (key, value) :: members =>
    ',' :: newLine depth ++ quote key ++ ':' :: ' ' :: indented depth value
      ++ indentedMembers depth members

end

def renderIndented (j : Json) : String :=
  String.ofList (j.indented 0)

end Json

end SnapshotAnalytics

import SnapshotAnalytics.Toml.Quoted
import SnapshotAnalytics.Toml.Scalar
import SnapshotAnalytics.Toml.Section

/-!
# TOML documents

The grammar of documents. A reader takes what it reads from the front of the characters and gives
back the rest. Values are nested fewer than 80 deep, and a key has fewer than 80 parts.
-/

namespace SnapshotAnalytics.Toml

abbrev Reader (α : Type) := List Char → Option (α × List Char)

/-! ## §1 Blanks, comments and line ends -/

/-- The characters without the blanks in front. -/
def dropBlanks (s : List Char) : List Char :=
  s.dropWhile isLineBlank

/-- The characters behind a line end or at the end of the document. -/
def takeLineEnd? : List Char → Option (List Char)
  | [] => some []
  | '\n' :: s => some s
  | '\r' :: '\n' :: s => some s
  | _ => none

/-- The characters without a comment in front. -/
def dropComment : List Char → List Char
  | '#' :: s => s.dropWhile isPrintable
  | s => s

/-- The characters behind the rest of a line that may only hold a comment. -/
def takeRestOfLine? (s : List Char) : Option (List Char) :=
  takeLineEnd? (dropComment (dropBlanks s))

/-- The characters without blanks, line ends and comments in front. -/
def dropSpace (inComment : Bool) : List Char → List Char
  | [] => []
  | '\r' :: '\n' :: s => dropSpace false s
  | c :: s =>
    -- a comment ends at a line end, or at a character that no value starts with either
    if inComment && isPrintable c then dropSpace true s
    else if isLineBlank c || c == '\n' then dropSpace false s
    else if c == '#' then dropSpace true s
    else c :: s

/-! ## §2 Keys -/

/-- How many parts a key may not have, and how deep values may not be nested. -/
def depthLimit : Nat := 80

def isKeyChar (c : Char) : Bool :=
  c.isAlphanum || c == '_' || c == '-'

def readKeyPart? : Reader String
  | '"' :: s => (readBasic? s).map fun (key, rest) => (String.ofList key, rest)
  | '\'' :: s => (readLiteral? s).map fun (key, rest) => (String.ofList key, rest)
  | s =>
    let key := s.takeWhile isKeyChar
    if key.isEmpty then none else some (String.ofList key, s.drop key.length)

/-- Read at most `n` parts of a key with points between them. -/
def readKeyParts? : Nat → Reader (List String)
  | 0, _ => none
  | n + 1, s => do
    let (part, s) ← readKeyPart? (dropBlanks s)
    match dropBlanks s with
    -- blanks around the points belong to no part
    | '.' :: s => do
      let (parts, s) ← readKeyParts? n s
      return (part :: parts, s)
    | s => return ([part], s)

def readKey? : Reader (List String) :=
  readKeyParts? (depthLimit - 1)

/-! ## §3 Values -/

/-- Read the items of an array and its closing bracket, given how an item is read and a bound on the
number of items. -/
def readItems? (item : Reader Toml) : Nat → Reader (List Toml)
  | 0, _ => none
  | n + 1, s =>
    match dropSpace false s with
    -- reached behind a comma as well: the last item of an array may have one
    | ']' :: s => some ([], s)
    | s => do
      let (v, s) ← item s
      match dropSpace false s with
      | ',' :: s => do
        let (items, s) ← readItems? item n s
        return (v :: items, s)
      | ']' :: s => return ([v], s)
      | _ => none

/-- Read a key and its value, given how a value is read. -/
def readEntry? (value : Reader Toml) : Reader Entry := fun s => do
  let (key, s) ← readKey? s
  match s with
  | '=' :: s => do
    let (v, s) ← value (dropBlanks s)
    return ((key, v), s)
  | _ => none

/-- Read the entries of an inline table, at least one, and its closing brace, given how a value is
read and a bound on the number of entries. -/
def readEntries? (value : Reader Toml) : Nat → Reader (List Entry)
  | 0, _ => none
  | n + 1, s => do
    let (entry, s) ← readEntry? value s
    match dropBlanks s with
    | ',' :: s => do
      let (entries, s) ← readEntries? value n s
      return (entry :: entries, s)
    | '\x7d' :: s => return ([entry], s)
    | _ => none

/-- Read the inside of an inline table and its closing brace. -/
def readInline? (value : Reader Toml) : Reader Toml := fun s =>
  match dropBlanks s with
  | '\x7d' :: s => some (.table [], s)
  | s => do
    -- an entry takes at least three characters, so the bound is never met
    let (entries, s) ← readEntries? value s.length s
    return (← ofEntries? entries, s)

/-- Read a value that is nested less than `depth` deep. -/
def readValue? (depth : Nat) : Reader Toml
  | '"' :: s => (readQuoted? ('"' :: s)).map fun (t, rest) => (.text (String.ofList t), rest)
  | '\'' :: s => (readQuoted? ('\'' :: s)).map fun (t, rest) => (.text (String.ofList t), rest)
  | '[' :: s =>
    match depth with
    | 0 => none
    | depth + 1 =>
      (readItems? (readValue? depth) (s.length + 1) s).map fun (items, rest) => (.array items, rest)
  | '\x7b' :: s =>
    match depth with
    | 0 => none
    | depth + 1 => readInline? (readValue? depth) s
  | s => takeScalar? s
  termination_by depth

/-! ## §4 Statements -/

/-- A line of a document. -/
inductive Statement where
  | heading (h : Heading)
  | entry (e : Entry)

/-- Read a key between brackets that are already open; the closing ones are given. -/
def readHeading? (closing : List Char) (heading : List String → Heading) : Reader Statement :=
  fun s => do
    let (key, s) ← readKey? s
    if closing.isPrefixOf s then
      return (.heading (heading key), ← takeRestOfLine? (s.drop closing.length))
    else
      none

def readStatement? : Reader Statement
  | '[' :: '[' :: s => readHeading? [']', ']'] .tables s
  | '[' :: s => readHeading? [']'] .table s
  | s => do
    let (entry, s) ← readEntry? (readValue? (depthLimit - 1)) s
    return (.entry entry, ← takeRestOfLine? s)

/-- Read the statements of a document, given a bound on the number of its lines. -/
def readStatements? : Nat → List Char → Option (List Statement)
  | 0, _ => none
  | n + 1, s =>
    match dropBlanks s with
    | [] => some []
    | s =>
      -- A line may hold nothing but blanks and a comment.
      match takeLineEnd? (dropComment s) with
      | some rest => readStatements? n rest
      | none => do
        let (statement, rest) ← readStatement? s
        return statement :: (← readStatements? n rest)

/-- The sections that statements make up, the last one first. -/
def sectionsOf (sections : List Section) : Statement → List Section
  | .heading h => ⟨h, []⟩ :: sections
  -- an entry belongs to the latest heading, or to the start of the document
  | .entry e =>
    match sections with
    | s :: rest => { s with entries := s.entries ++ [e] } :: rest
    | [] => [⟨.start, [e]⟩]

/-- The characters of a document without a byte order mark in front. -/
def dropMark : List Char → List Char
  | '\ufeff' :: s => s
  | s => s

def read? (document : String) : Option Toml := do
  let s := dropMark document.toList
  let statements ← readStatements? (s.length + 1) s
  ofSections? (statements.foldl sectionsOf []).reverse

end SnapshotAnalytics.Toml

import SnapshotAnalytics.Text.Hexadecimal

/-!
# Quoted texts in TOML

A basic text stands between double quotes and has escapes; a literal text stands between single
quotes and has none. Three quotes make either of them run over several lines: a line feed right
behind the opening is dropped, line ends count as line feeds, and one or two quotes may stand inside
and at the end. In a basic text a backslash at the end of a line takes away all white space up to the
next character.
-/

namespace SnapshotAnalytics.Toml

/-! ## §1 Characters -/

def isLineBlank (c : Char) : Bool :=
  c == ' ' || c == '\t'

/-- A character that may stand in comments and texts: no control character but the tabulator. -/
def isPrintable (c : Char) : Bool :=
  c == '\t' || (0x20 ≤ c.toNat && c.toNat != 0x7F)

/-- The character with the code point that hexadecimal digits spell. -/
def charOfDigits? (digits : List Char) : Option Char := do
  let values ← digits.mapM Text.hexValue?
  let n := Text.ofHexValues values
  if h : n.isValidChar then some (Char.ofNatAux n h) else none

/-- The character that a short escape stands for. -/
def shortEscape? (c : Char) : Option Char :=
  [('b', '\x08'), ('f', '\x0c'), ('n', '\n'), ('r', '\r'), ('t', '\t'), ('\\', '\\'),
    ('"', '"')].lookup c

/-- Put a character in front of the text read behind it. -/
def consRead (c : Char) (read : Option (List Char × List Char)) : Option (List Char × List Char) :=
  read.map fun (s, rest) => (c :: s, rest)

/-- Put a character, if there is one, in front of the text read behind it. -/
def consRead? (c : Option Char) (read : Option (List Char × List Char)) :
    Option (List Char × List Char) :=
  c.bind fun c => consRead c read

/-! ## §2 Texts in one line -/

/-- Read a basic text behind its opening quote. -/
def readBasic? : List Char → Option (List Char × List Char)
  | [] => none
  | '"' :: s => some ([], s)
  | '\\' :: 'u' :: a :: b :: c :: d :: s => consRead? (charOfDigits? [a, b, c, d]) (readBasic? s)
  | '\\' :: 'U' :: a :: b :: c :: d :: e :: f :: g :: h :: s =>
    consRead? (charOfDigits? [a, b, c, d, e, f, g, h]) (readBasic? s)
  | '\\' :: c :: s => consRead? (shortEscape? c) (readBasic? s)
  | c :: s => if isPrintable c && c != '\\' then consRead c (readBasic? s) else none

/-- Read a literal text behind its opening quote. -/
def readLiteral? : List Char → Option (List Char × List Char)
  | [] => none
  | '\'' :: s => some ([], s)
  | c :: s => if isPrintable c then consRead c (readLiteral? s) else none

/-! ## §3 Texts over several lines -/

/-- The quotes in front of the closing ones, up to two, and what follows the closing ones. -/
def closing (quote : Char) : List Char → List Char × List Char
  | a :: b :: s =>
    if a = quote && b = quote then ([a, b], s)
    else if a = quote then ([a], b :: s)
    else ([], a :: b :: s)
  | [a] => if a = quote then ([a], []) else ([], [a])
  | [] => ([], [])

def endsLine : List Char → Bool
  | '\n' :: _ => true
  | '\r' :: '\n' :: _ => true
  | c :: s => isLineBlank c && endsLine s
  | [] => false

/-- Read a basic text behind its three opening quotes. While `skipping`, white space is dropped. -/
def readLongBasic? (skipping : Bool) : List Char → Option (List Char × List Char)
  | [] => none
  | '"' :: '"' :: '"' :: s => some (closing '"' s)
  | '\r' :: '\n' :: s =>
    if skipping then readLongBasic? true s else consRead '\n' (readLongBasic? false s)
  | '\n' :: s => if skipping then readLongBasic? true s else consRead '\n' (readLongBasic? false s)
  | '\\' :: 'u' :: a :: b :: c :: d :: s =>
    consRead? (charOfDigits? [a, b, c, d]) (readLongBasic? false s)
  | '\\' :: 'U' :: a :: b :: c :: d :: e :: f :: g :: h :: s =>
    consRead? (charOfDigits? [a, b, c, d, e, f, g, h]) (readLongBasic? false s)
  -- a backslash that ends a line takes the line end and the white space behind it along
  | '\\' :: c :: s =>
    if endsLine (c :: s) then readLongBasic? true (c :: s)
    else consRead? (shortEscape? c) (readLongBasic? false s)
  | c :: s =>
    if skipping && isLineBlank c then readLongBasic? true s
    else if isPrintable c && c != '\\' then consRead c (readLongBasic? false s)
    else none

/-- Read a literal text behind its three opening quotes. -/
def readLongLiteral? : List Char → Option (List Char × List Char)
  | [] => none
  | '\'' :: '\'' :: '\'' :: s => some (closing '\'' s)
  | '\r' :: '\n' :: s => consRead '\n' (readLongLiteral? s)
  | '\n' :: s => consRead '\n' (readLongLiteral? s)
  | c :: s => if isPrintable c then consRead c (readLongLiteral? s) else none

def dropLineEnd : List Char → List Char
  | '\r' :: '\n' :: s => s
  | '\n' :: s => s
  | s => s

/-- Read a quoted text, over one line or several. -/
def readQuoted? : List Char → Option (List Char × List Char)
  | '"' :: '"' :: '"' :: s => readLongBasic? false (dropLineEnd s)
  | '\'' :: '\'' :: '\'' :: s => readLongLiteral? (dropLineEnd s)
  | '"' :: s => readBasic? s
  | '\'' :: s => readLiteral? s
  | _ => none

end SnapshotAnalytics.Toml

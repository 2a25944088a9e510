import SnapshotAnalytics.Json.Number
import SnapshotAnalytics.Text.Hexadecimal

/-!
# JSON tokens

A JSON text is cut into tokens by a machine that reads one character at a time. A literal can be well
formed and still stand for no value: a number beyond the greatest double, a text in which half of a
UTF-16 pair is escaped alone. Such a literal is a token without a value.
-/

namespace SnapshotAnalytics.Json

/-- A token. A number or text without a value is well formed but stands for nothing. -/
inductive Token where
  | openArray
  | closeArray
  | openObject
  | closeObject
  | comma
  | colon
  | null
  | bool (b : Bool)
  | number (n : Option Number)
  | text (s : Option String)
  deriving DecidableEq

/-! ## §1 Quoted texts -/

/-- The character that a short escape stands for. -/
def shortEscape? (c : Char) : Option Char :=
  [('"', '"'), ('\\', '\\'), ('/', '/'), ('b', '\x08'), ('f', '\x0c'), ('n', '\n'), ('r', '\r'),
    ('t', '\t')].lookup c

/-- The code points and UTF-16 halves that the characters between two quotes stand for. -/
def codeUnits? : List Char → Option (List Nat)
  | [] => some []
  | '\\' :: 'u' :: a :: b :: c :: d :: s => do
    let values ← [a, b, c, d].mapM Text.hexValue?
    return Text.ofHexValues values :: (← codeUnits? s)
  -- this is also where `\u` with fewer than four digits ends: `u` is no short escape
  | '\\' :: c :: s => do return (← shortEscape? c).toNat :: (← codeUnits? s)
  | c :: s => if c = '\\' then none else (codeUnits? s).map (c.toNat :: ·)

/-- The first half of a UTF-16 pair. -/
def isLeading (n : Nat) : Bool :=
  0xD800 ≤ n && n < 0xDC00

def isTrailing (n : Nat) : Bool :=
  0xDC00 ≤ n && n < 0xE000

/-- The characters that code points and UTF-16 halves stand for; a half alone stands for nothing. -/
def pairUp? : List Nat → Option (List Char)
  | [] => some []
  | [n] => if isLeading n || isTrailing n then none else some [Char.ofNat n]
  | n :: n' :: units =>
    -- Two halves stand for one character beyond the basic plane.
    if isLeading n && isTrailing n' then
      (pairUp? units).map (Char.ofNat (0x10000 + (n - 0xD800) * 0x400 + (n' - 0xDC00)) :: ·)
    else if isLeading n || isTrailing n then
      none
    else
      (pairUp? (n' :: units)).map (Char.ofNat n :: ·)

/-- The token of a quoted text, given the characters between the quotes. -/
def Token.ofQuoted? (raw : List Char) : Option Token :=
  (codeUnits? raw).map fun units => text ((pairUp? units).map String.ofList)

def Token.ofWord? (word : List Char) : Option Token :=
  if word = "null".toList then some null
  else if word = "true".toList then some (bool true)
  else if word = "false".toList then some (bool false)
  else none

def Token.ofNumeral? (numeral : List Char) : Option Token :=
  (Number.Literal.read? numeral).map fun l => number l.value?

/-! ## §2 The machine -/

/-- Where the machine stands. Characters of the token at hand are held latest first. -/
inductive Scan where
  | between
  | word (seen : List Char)
  | numeral (seen : List Char)
  | quoted (seen : List Char)
  | escaped (seen : List Char)

namespace Scan

/-- A character that can stand inside a number literal. -/
def isNumeralChar (c : Char) : Bool :=
  c.isDigit || c == '.' || c == '-' || c == '+' || c == 'e' || c == 'E'

def punctuation? (c : Char) : Option Token :=
  [('[', Token.openArray), (']', .closeArray), ('\x7b', .openObject), ('\x7d', .closeObject),
    (',', .comma), (':', .colon)].lookup c

/-- Read a character between two tokens: the token it is, if it is one, and where the machine then
stands. -/
def start (c : Char) : Option (List Token × Scan) :=
  if c = ' ' || c = '\t' || c = '\n' || c = '\r' then
    some ([], between)
  else if c = '"' then
    some ([], quoted [])
  else if c = '-' || c.isDigit then
    some ([], numeral [c])
  else if c.isLower then
    some ([], word [c])
  else
    (punctuation? c).map fun token => ([token], between)

/-- The tokens that end where the machine stands: at most one. -/
def finish : Scan → Option (List Token)
  | between => some []
  | word seen => (Token.ofWord? seen.reverse).map ([·])
  | numeral seen => (Token.ofNumeral? seen.reverse).map ([·])
  -- a text needs its closing quote
  | quoted _ => none
  | escaped _ => none

/-- End the token at hand and read a character behind it. -/
def finishBefore (scan : Scan) (c : Char) : Option (List Token × Scan) := do
  let ended ← scan.finish
  let (started, next) ← start c
  return (started ++ ended, next)

/-- Read one character: the tokens that it completes, latest first, and where the machine then
stands. -/
def step (scan : Scan) (c : Char) : Option (List Token × Scan) :=
  match scan with
  | between => start c
  | word seen => if c.isLower then some ([], word (c :: seen)) else finishBefore scan c
  | numeral seen =>
    if isNumeralChar c then some ([], numeral (c :: seen)) else finishBefore scan c
  | quoted seen =>
    if c = '"' then
      (Token.ofQuoted? seen.reverse).map fun token => ([token], between)
    else if c = '\\' then
      some ([], escaped (c :: seen))
    else if c.toNat < 0x20 then
      none
    else
      some ([], quoted (c :: seen))
  -- whether the escape is a valid one is seen when the text ends
  | escaped seen => some ([], quoted (c :: seen))

/-- Read the characters from where the machine stands, in front of them the tokens read before,
latest first. -/
def run (scan : Scan) (done : List Token) : List Char → Option (List Token)
  | [] => scan.finish.map fun ended => (ended ++ done).reverse
  | c :: s =>
    match scan.step c with
    | none => none
    | some (tokens, next) => run next (tokens ++ done) s

end Scan

def tokens? (s : List Char) : Option (List Token) :=
  Scan.between.run [] s

end SnapshotAnalytics.Json

import SnapshotAnalytics.Calendar.Date
import SnapshotAnalytics.Number.Reading
import SnapshotAnalytics.Text.Hexadecimal
import SnapshotAnalytics.Toml.Basic

/-!
# Numbers, truth values and dates in TOML

Digits may be grouped by single underscores between two of them. Integers have 64 bits and can be
written in base 16, 8 or 2; numbers with a fraction or an exponent are doubles. Dates and times are
checked to exist.
-/

namespace SnapshotAnalytics.Toml

/-! ## §1 Numbers -/

/-- Whether characters are digits, with single underscores between two of them. -/
def isDigitRun (isDigit : Char → Bool) : List Char → Bool
  | [] => false
  | [c] => isDigit c
  | c :: '_' :: s => isDigit c && isDigitRun isDigit s
  | c :: s => isDigit c && isDigitRun isDigit s

/-- Whether digits can stand before the point of a number: a zero only alone. -/
def isWholeRun (s : List Char) : Bool :=
  isDigitRun Char.isDigit s && (s == ['0'] || s.head? != some '0')

/-- Characters without the underscores. -/
def ungroup (s : List Char) : List Char :=
  s.filter (· ≠ '_')

def splitSign : List Char → Bool × List Char
  | '-' :: s => (true, s)
  | '+' :: s => (false, s)
  | s => (false, s)

/-- An integer, if it has 64 bits. -/
def ofInteger? (n : Int) : Option Toml :=
  if -0x8000000000000000 ≤ n ∧ n < 0x8000000000000000 then some (.integer n) else none

/-- The bases other than ten, by the letter that marks them. -/
def bases : List (Char × Nat) :=
  [('x', 16), ('o', 8), ('b', 2)]

def isBaseDigit (base : Nat) (c : Char) : Bool :=
  (Text.hexValue? c).any (· < base)

/-- Read an integer in a base other than ten, behind the zero and the letter. -/
def readBased? (base : Nat) (s : List Char) : Option Toml :=
  if isDigitRun (isBaseDigit base) s then
    ofInteger? ((ungroup s).foldl (fun n c => base * n + (Text.hexValue? c).getD 0) 0 : Nat)
  else
    none

def readInteger? (s : List Char) : Option Toml :=
  match s with
  | '0' :: mark :: digits =>
    -- A base is marked behind a zero, which has no sign before it.
    match bases.lookup mark with
    | some base => readBased? base digits
    | none => none
  | _ =>
    let (negative, digits) := splitSign s
    if isWholeRun digits then
      let n : Int := natOfDigits (ungroup digits)
      ofInteger? (if negative then -n else n)
    else
      none

/-- Whether characters are the exponent of a number. -/
def isExponent : List Char → Bool
  | c :: s => (c == 'e' || c == 'E') && isDigitRun Char.isDigit (splitSign s).2
  | [] => false

/-- Whether characters are the fraction of a number, which an exponent may follow. -/
def isFraction : List Char → Bool
  | '.' :: s =>
    let digits := s.takeWhile fun c => c.isDigit || c == '_'
    let rest := s.drop digits.length
    isDigitRun Char.isDigit digits && (rest.isEmpty || isExponent rest)
  | _ => false

/-- Read a double. One that is written in digits may not be beyond the greatest double. -/
def readFloat? (s : List Char) : Option Toml :=
  let (_, magnitude) := splitSign s
  if magnitude == "inf".toList || magnitude == "nan".toList then
    (Binary64.read? s).map .float
  else
    let whole := magnitude.takeWhile fun c => c.isDigit || c == '_'
    let rest := magnitude.drop whole.length
    if isWholeRun whole && (isExponent rest || isFraction rest) then
      ((Binary64.read? (ungroup s)).filter fun x => x != .infinityOf false).map .float
    else
      none

/-! ## §2 Dates and times -/

/-- Read a number of exactly `n` digits from the front. -/
def takeDigits? (n : Nat) (s : List Char) : Option (Nat × List Char) :=
  let digits := s.take n
  if digits.length = n && digits.all Char.isDigit then some (natOfDigits digits, s.drop n) else none

def takeChar? (c : Char) : List Char → Option (List Char)
  | d :: s => if d = c then some s else none
  | [] => none

def takeDate? (s : List Char) : Option (List Char) := do
  let (year, s) ← takeDigits? 4 s
  let s ← takeChar? '-' s
  let (month, s) ← takeDigits? 2 s
  let s ← takeChar? '-' s
  let (day, s) ← takeDigits? 2 s
  let _ ← Date.of? year month day
  return s

def takeMinutes? (s : List Char) : Option (List Char) := do
  let (hour, s) ← takeDigits? 2 s
  let s ← takeChar? ':' s
  let (minute, s) ← takeDigits? 2 s
  if hour < 24 && minute < 60 then some s else none

/-- Whether characters are nothing or the fraction of a second. -/
def isSecondFraction : List Char → Bool
  | [] => true
  | '.' :: s => !s.isEmpty && s.all Char.isDigit
  | _ => false

/-- Whether characters are nothing or an offset from universal time. -/
def isOffset : List Char → Bool
  | [] => true
  | ['Z'] => true
  | ['z'] => true
  | '+' :: s => takeMinutes? s == some []
  | '-' :: s => takeMinutes? s == some []
  | _ => false

/-- Whether characters are a time of day, behind a date one with an offset. -/
def isTime (withOffset : Bool) (s : List Char) : Bool :=
  let afterSeconds? := do
    let s ← takeMinutes? s
    let s ← takeChar? ':' s
    let (second, s) ← takeDigits? 2 s
    -- A leap second is allowed for.
    if second ≤ 60 then some s else none
  afterSeconds?.any fun s =>
    let fraction := s.takeWhile fun c => c.isDigit || c == '.'
    let rest := s.drop fraction.length
    isSecondFraction fraction && (if withOffset then isOffset rest else rest.isEmpty)

/-- Whether characters are a date, a time, or both of them with a `T` between them. -/
def isMoment (s : List Char) : Bool :=
  match takeDate? s with
  | some [] => true
  | some (c :: time) => (c == 'T' || c == 't') && isTime true time
  | none => isTime false s

/-! ## §3 Scalars -/

/-- A character that can stand in a scalar that is no quoted text. -/
def isScalarChar (c : Char) : Bool :=
  c.isAlphanum || c == '_' || c == '+' || c == '-' || c == '.' || c == ':'

def ofScalar? (s : List Char) : Option Toml :=
  if s == "true".toList then some (.bool true)
  else if s == "false".toList then some (.bool false)
  else if isMoment s then some (.moment (String.ofList s))
  else readFloat? s <|> readInteger? s

/-- Read a scalar that is no quoted text from the front; a date and its time may be separated by a
space. -/
def takeScalar? (s : List Char) : Option (Toml × List Char) :=
  let first := s.takeWhile isScalarChar
  let rest := s.drop first.length
  let time := (rest.drop 1).takeWhile isScalarChar
  if rest.head? == some ' ' && takeDate? first == some [] && isTime true time then
    some (.moment (String.ofList (first ++ ' ' :: time)), rest.drop (1 + time.length))
  else
    (ofScalar? first).map fun v => (v, rest)

end SnapshotAnalytics.Toml

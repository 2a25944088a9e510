import SnapshotAnalytics.Calendar.Date
import SnapshotAnalytics.Number.Reading
import SnapshotAnalytics.Text.Blank

/-!
# Dates as text

A date is written `YYYY-MM-DD`, or `YYYYMMDD` in compact form; a year outside 0 to 9999 is written
with a sign and at least four digits. Reading is lenient about leading zeros and about blanks in
front of a number: an unsigned year has at most four digits, a signed one any number, months and days
have at most two.
-/

namespace SnapshotAnalytics.Date

/-! ## §1 Writing -/

/-- Decimal digits, filled up with zeros in front to the given number. -/
def padded (width n : Nat) : List Char :=
  let digits := Nat.toDigits 10 n
  List.replicate (width - digits.length) '0' ++ digits

/-- A year: four digits, with a sign unless it lies between 0 and 9999. -/
def yearText (year : Int) : List Char :=
  if 0 ≤ year ∧ year ≤ 9999 then
    padded 4 year.natAbs
  else
    (if year < 0 then '-' else '+') :: padded 4 year.natAbs

/-- `YYYY-MM-DD` -/
def calendarChars (d : Date) : List Char :=
  yearText d.year ++ '-' :: padded 2 d.month ++ '-' :: padded 2 d.day

/-- `YYYYMMDD` -/
def compactChars (d : Date) : List Char :=
  yearText d.year ++ padded 2 d.month ++ padded 2 d.day

/-- `YYYY-MM-DD` -/
def text (d : Date) : String :=
  String.ofList d.calendarChars

instance : ToString Date := ⟨text⟩

/-! ## §2 Reading -/

/-- Read a number of at least one digit and at most `most`, and give back the rest. -/
def takeNumber? (most : Option Nat) (s : List Char) : Option (Nat × List Char) :=
  let run := s.takeWhile Char.isDigit
  let digits := match most with
    | none => run
    | some n => run.take n
  if digits.isEmpty then none else some (natOfDigits digits, s.drop digits.length)

/-- Read a year and give back the rest. -/
def takeYear? (s : List Char) : Option (Int × List Char) :=
  match Text.trimFront s with
  | '-' :: r => (takeNumber? none r).map fun (n, rest) => (-(n : Int), rest)
  | '+' :: r => (takeNumber? none r).map fun (n, rest) => ((n : Int), rest)
  | r => (takeNumber? (some 4) r).map fun (n, rest) => ((n : Int), rest)

/-- Read a month or a day and give back the rest. -/
def takeTwoDigits? (s : List Char) : Option (Nat × List Char) :=
  takeNumber? (some 2) (Text.trimFront s)

/-- Read the dash between two numbers and give back the rest. -/
def takeDash? : List Char → Option (List Char)
  | '-' :: r => some r
  | _ => none

/-- Read a date, given how the space between two numbers and behind the last one is read. -/
def readWith? (between : List Char → Option (List Char)) (behind : List Char → List Char)
    (s : List Char) : Option Date := do
  let (year, s) ← takeYear? s
  let s ← between s
  let (month, s) ← takeTwoDigits? s
  let s ← between s
  let (day, s) ← takeTwoDigits? s
  if (behind s).isEmpty then of? year month day else none

/-- Read `YYYY-MM-DD`. -/
def readCalendar? : List Char → Option Date :=
  readWith? takeDash? id

/-- Read `YYYYMMDD`. -/
def readCompact? : List Char → Option Date :=
  readWith? some id

/-- Read `YYYY-MM-DD` with blanks allowed around the dashes and at the end. -/
def readSpaced? : List Char → Option Date :=
  readWith? (fun s => takeDash? (Text.trimFront s)) Text.trimFront

end SnapshotAnalytics.Date

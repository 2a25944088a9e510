import SnapshotAnalytics.Calendar.Text
import SnapshotAnalytics.Query.Parameter

/-!
# Fields of tables

A field holds texts, numbers or dates. The snapshot dates of a table are stored as dates, or as
compact texts of eight digits.
-/

namespace SnapshotAnalytics

/-- What a field holds. -/
inductive FieldKind where
  | text
  | number
  | date
  deriving DecidableEq

namespace FieldKind

def name : FieldKind → String
  | text => "text"
  | number => "number"
  | date => "date"

def ofName? (s : String) : Option FieldKind :=
  [text, number, date].find? (·.name == s)

/-- The type of the parameters that values of a kind are bound as. -/
def parameterType : FieldKind → ParameterType
  | text => .string
  | number => .float
  | date => .date

end FieldKind

/-- How the snapshot dates of a table are stored. -/
inductive DateEncoding where
  | calendar
  | compact
  deriving DecidableEq

namespace DateEncoding

def name : DateEncoding → String
  | calendar => "calendar"
  | compact => "compact"

def ofName? (s : String) : Option DateEncoding :=
  [calendar, compact].find? (·.name == s)

def kind : DateEncoding → FieldKind
  | calendar => .date
  | compact => .text

/-- The type of the parameters that encoded dates are bound as. -/
def parameterType : DateEncoding → ParameterType
  | calendar => .date
  | compact => .string

def encode (e : DateEncoding) (d : Date) : String :=
  match e with
  | calendar => String.ofList d.calendarChars
  | compact => String.ofList d.compactChars

/-- The characters that take up the first `n` bytes, if a character ends there. -/
def takeBytes? : Nat → List Char → Option (List Char)
  | 0, _ => some []
  | _ + 1, [] => none
  | n + 1, c :: s =>
    if c.utf8Size ≤ n + 1 then (takeBytes? (n + 1 - c.utf8Size) s).map (c :: ·) else none
  termination_by _ s => s.length

/-- The date that a text starts with: eight digits, or a date in its first ten bytes. -/
def written? (s : List Char) : Option Date :=
  if s.length = 8 && s.all Char.isDigit then
    Date.readCompact? s
  else
    (takeBytes? 10 s).bind Date.readCalendar?

/-- The date that a text stands for, in either encoding. The first of January 1970 stands for a
missing date. -/
def decode? (s : String) : Option Date :=
  (written? (Text.trim s.toList)).filter (· ≠ .epoch)

end DateEncoding

end SnapshotAnalytics

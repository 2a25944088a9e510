/-!
# Calendar dates

Days of the proleptic Gregorian calendar between the first of January of the year -262143 and the
last of December of the year 262142. A date carries the proof that it exists, so a date computed or
read is a day of the calendar or there is none.
-/

namespace SnapshotAnalytics

namespace Calendar

/-- A year with a 29th of February. -/
def isLeap (year : Int) : Bool :=
  year % 4 == 0 && (year % 100 != 0 || year % 400 == 0)

def monthLength (year : Int) (month : Nat) : Nat :=
  if month = 2 then
    if isLeap year then 29 else 28
  else if month = 4 || month = 6 || month = 9 || month = 11 then
    30
  else
    31

def firstYear : Int := -262143

/-- The latest year of the calendar. -/
def lastYear : Int := 262142

/-- The day `day` of the month `month` exists in the year `year`. -/
def Exists (year : Int) (month day : Nat) : Prop :=
  (firstYear ≤ year ∧ year ≤ lastYear) ∧ (1 ≤ month ∧ month ≤ 12) ∧
    1 ≤ day ∧ day ≤ monthLength year month

instance (year : Int) (month day : Nat) : Decidable (Exists year month day) :=
  inferInstanceAs (Decidable (_ ∧ _))

end Calendar

/-- A day of the calendar. -/
structure Date where
  year : Int
  month : Nat
  day : Nat
  onCalendar : Calendar.Exists year month day
  deriving DecidableEq

namespace Date

/-- The given day, if it exists. -/
def of? (year : Int) (month day : Nat) : Option Date :=
  if h : Calendar.Exists year month day then some ⟨year, month, day, h⟩ else none

/-- The day that stands for a missing date. -/
def epoch : Date := ⟨1970, 1, 1, by decide⟩

instance : Inhabited Date := ⟨epoch⟩

/-- A number that grows with the date. -/
def rank (d : Date) : Int :=
  -- 32 exceeds every day and 12 months make a year, so no two dates share a rank
  (d.year * 12 + d.month) * 32 + d.day

instance : Ord Date := ⟨fun d e => compare d.rank e.rank⟩

instance : LE Date := ⟨fun d e => d.rank ≤ e.rank⟩

instance : LT Date := ⟨fun d e => d.rank < e.rank⟩

instance (d e : Date) : Decidable (d ≤ e) := inferInstanceAs (Decidable (d.rank ≤ e.rank))

instance (d e : Date) : Decidable (d < e) := inferInstanceAs (Decidable (d.rank < e.rank))

/-- The day before, if the calendar reaches back to it. -/
def yesterday? (d : Date) : Option Date :=
  if 1 < d.day then
    of? d.year d.month (d.day - 1)
  else if 1 < d.month then
    of? d.year (d.month - 1) (Calendar.monthLength d.year (d.month - 1))
  else
    of? (d.year - 1) 12 31

/-- The day `n` days before, if the calendar reaches back to it. -/
def daysBefore? : Nat → Date → Option Date
  | 0, d => some d
  | n + 1, d => d.yesterday?.bind (daysBefore? n)

/-- The day `n` months before: the same day of the month, or the last day of a month that is too
short for it. -/
def monthsBefore? (n : Nat) (d : Date) : Option Date :=
  -- months counted from the year zero; `/` and `%` round down, as the years before it need
  let months := d.year * 12 + (d.month - 1 : Nat) - n
  let year := months / 12
  let month := (months % 12).toNat + 1
  of? year month (min d.day (Calendar.monthLength year month))

end Date

end SnapshotAnalytics

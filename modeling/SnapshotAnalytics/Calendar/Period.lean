import SnapshotAnalytics.Calendar.Text
import SnapshotAnalytics.Error
import SnapshotAnalytics.Text.Casing

/-!
# Comparison periods

A figure is compared with the same figure one day, week, month, quarter or year before, or with that
of a fixed date that is not later.
-/

namespace SnapshotAnalytics

/-- How far a comparison reaches back. -/
inductive ComparePeriod where
  | previousDay
  | previousWeek
  | previousMonth
  | previousQuarter
  | previousYear
  deriving DecidableEq

namespace ComparePeriod

/-! ## §1 Spellings -/

def name : ComparePeriod → String
  | previousDay => "previousDay"
  | previousWeek => "previousWeek"
  | previousMonth => "previousMonth"
  | previousQuarter => "previousQuarter"
  | previousYear => "previousYear"

/-- The folded spellings of the periods. -/
def spellings : List (String × ComparePeriod) :=
  [("previousday", previousDay), ("day", previousDay), ("dod", previousDay), ("1d", previousDay),
    ("previousweek", previousWeek), ("week", previousWeek), ("wow", previousWeek),
    ("1w", previousWeek), ("previousmonth", previousMonth), ("month", previousMonth),
    ("mom", previousMonth), ("1m", previousMonth), ("previousquarter", previousQuarter),
    ("quarter", previousQuarter), ("qoq", previousQuarter), ("3m", previousQuarter),
    ("previousyear", previousYear), ("year", previousYear), ("yoy", previousYear),
    ("1y", previousYear)]

/-- A spelling without blanks at its ends, underscores, dashes and spaces, in lower case. -/
def fold (s : String) : String :=
  String.ofList
    (Text.lower ((Text.trim s.toList).filter fun c => c != '_' && c != '-' && c != ' '))

def read? (s : String) : Option ComparePeriod :=
  spellings.lookup (fold s)

/-- The period of a spelling, or why there is none. -/
def read (s : String) : Except AnalyticsError ComparePeriod :=
  match read? s with
  | some period => .ok period
  | none => .error (.unknownPeriod s)

/-! ## §2 Shifting -/

/-- The date one period before, if the calendar reaches back to it. -/
def shift? (period : ComparePeriod) (d : Date) : Option Date :=
  match period with
  | previousDay => d.daysBefore? 1
  | previousWeek => d.daysBefore? 7
  | previousMonth => d.monthsBefore? 1
  | previousQuarter => d.monthsBefore? 3
  | previousYear => d.monthsBefore? 12

/-- The date one period before, or that the calendar does not reach back to it. -/
def shift (period : ComparePeriod) (d : Date) : Except AnalyticsError Date :=
  match period.shift? d with
  | some shifted => .ok shifted
  | none => .error (.beforeCalendar period.name d.text)

/-- The date to compare `asOf` with: the fixed date if there is one, otherwise the date one period
before, a month if no period is given. -/
def target (asOf : Date) (period : Option ComparePeriod) (fixed : Option Date) :
    Except AnalyticsError Date :=
  match fixed with
  | some d => if asOf < d then .error (.comparisonAfter d.text asOf.text) else .ok d
  | none => (period.getD previousMonth).shift asOf

end ComparePeriod

end SnapshotAnalytics

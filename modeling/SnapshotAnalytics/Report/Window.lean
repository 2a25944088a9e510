import SnapshotAnalytics.Calendar.Period
import SnapshotAnalytics.Json.Reading

/-!
# Windows

A window says which day a report is for and which day it is compared with.
-/

namespace SnapshotAnalytics

/-- The day of a report, the period it is compared over, and a fixed day to compare it with. -/
structure Window where
  asOf : Option Date
  period : Option ComparePeriod
  compareDate : Option Date
  deriving DecidableEq

namespace Window

def targets (w : Window) (today : Date) : Except AnalyticsError (Date × Date) := do
  let asOf := w.asOf.getD today
  return (asOf, ← ComparePeriod.target asOf w.period w.compareDate)

def dateToJson (d : Date) : Json :=
  .text d.text

def members (w : Window) : List (String × Json) :=
  Json.member? "asOfDate" (w.asOf.map dateToJson)
    ++ Json.member? "period" (w.period.map fun p => .text p.name)
    ++ Json.member? "compareDate" (w.compareDate.map dateToJson)

def memberNames : List String :=
  ["asOfDate", "period", "compareDate"]

def toJson (w : Window) : Json :=
  .object w.members

def ofSlots? : List (Option Json.Draft) → Option Window
  | [asOf, period, compareDate] => do
    return {
      asOf := ← Json.Draft.optional Json.Draft.date? asOf
      period := ← Json.Draft.optional (Json.Draft.spelled? ComparePeriod.read?) period
      compareDate := ← Json.Draft.optional Json.Draft.date? compareDate }
  | _ => none

def ofDraft? (d : Json.Draft) : Option Window :=
  (d.slots? memberNames).bind ofSlots?

end Window

end SnapshotAnalytics

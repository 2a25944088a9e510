import SnapshotAnalytics.Cache.Store
import SnapshotAnalytics.Report.Breakdown
import SnapshotAnalytics.Report.History
import SnapshotAnalytics.Report.Listing
import SnapshotAnalytics.Report.Maturity
import SnapshotAnalytics.Report.StatCard

/-!
# Answers

An answer holds a report and what it is based on: the table, the day asked for, the snapshots it was
made from. An envelope holds an answer, or the error that stands in place of one.
-/

namespace SnapshotAnalytics

/-- A report. -/
inductive Payload where
  | breakdown (rows : List (BreakdownRow Binary64))
  | statCard (metrics : List (StatMetric Binary64))
  | history (series : HistorySeries Binary64)
  | maturity (series : MaturitySeries Binary64)
  | rows (page : RowsPage)
  | distinct (values : DistinctValues)

namespace Payload

def toJson : Payload → Json
  | breakdown lines => .array (lines.map BreakdownRow.toJson)
  | statCard metrics => .array (metrics.map StatMetric.toJson)
  | history series => series.toJson
  | maturity series => series.toJson
  | rows page => page.toJson
  | distinct values => values.toJson

end Payload

/-- What a report is based on, how long it is kept and how long it took. -/
structure Basis where
  table : String
  asOf : Date
  current : Option Date
  comparison : Option Date
  ttl : Nat
  elapsedMs : Nat
  deriving DecidableEq

namespace Basis

def toJson (b : Basis) : Json :=
  .object ([("table", .text b.table), ("asOfDate", Window.dateToJson b.asOf)]
    ++ Json.member? "currentSnapshot" (b.current.map Window.dateToJson)
    ++ Json.member? "comparisonSnapshot" (b.comparison.map Window.dateToJson)
    ++ [("ttlSecs", .ofNat (b.ttl / nanoseconds 1)), ("elapsedMs", .ofNat b.elapsedMs)])

end Basis

/-- A report and what it is based on. -/
structure Answer where
  payload : Payload
  basis : Basis

/-- An answer that took some time. -/
def Answer.timed (a : Answer) (elapsed : Nat) : Answer :=
  { a with basis := { a.basis with elapsedMs := elapsed / 1000000 } }

/-- An answer, or the error in place of one. -/
abbrev Envelope := Except AnalyticsError Answer

namespace Envelope

/-- An error as JSON: its class and its wording. -/
def errorToJson (e : AnalyticsError) : Json :=
  .object [("code", .text e.code), ("message", .text e.message)]

def toJson : Envelope → Json
  | .ok answer => .object [("data", answer.payload.toJson), ("meta", answer.basis.toJson)]
  | .error e => .object [("error", errorToJson e)]

def isSuccess : Envelope → Bool
  | .ok _ => true
  | .error _ => false

end Envelope

end SnapshotAnalytics

import SnapshotAnalytics.Report.Breakdown
import SnapshotAnalytics.Report.History
import SnapshotAnalytics.Report.Listing
import SnapshotAnalytics.Report.Maturity
import SnapshotAnalytics.Report.StatCard

/-!
# Requests

A request asks for one of six kinds of report. In JSON it is a record with its kind as one more
member; a request that takes in no other record can also be given by position, its kind first.
-/

namespace SnapshotAnalytics

/-- A request for a report. -/
inductive Request where
  | breakdown (r : BreakdownRequest)
  | statCard (r : StatCardRequest)
  | history (r : HistoryRequest)
  | maturity (r : MaturityRequest)
  | rows (r : RowsRequest)
  | distinct (r : DistinctRequest)
  deriving DecidableEq

namespace Request

def kind : Request → String
  | breakdown _ => "grouped"
  | statCard _ => "stat"
  | history _ => "historical"
  | maturity _ => "future"
  | rows _ => "rows"
  | distinct _ => "distinct"

def table : Request → String
  | breakdown r => r.spec.table
  | statCard r => r.spec.table
  | history r => r.spec.table
  | maturity r => r.spec.table
  | rows r => r.table
  | distinct r => r.table

/-- The members of a request, its kind aside. -/
def members : Request → List (String × Json)
  | breakdown r => r.members
  | statCard r => r.members
  | history r => r.members
  | maturity r => r.members
  | rows r => r.members
  | distinct r => r.members

def toJson (r : Request) : Json :=
  .object (("kind", .text r.kind) :: r.members)

def ofKind? (kind : String) (d : Json.Draft) : Option Request :=
  match kind with
  | "grouped" => (BreakdownRequest.ofDraft? d).map breakdown
  | "stat" => (StatCardRequest.ofDraft? d).map statCard
  | "historical" => (HistoryRequest.ofDraft? d).map history
  | "future" => (MaturityRequest.ofDraft? d).map maturity
  | "rows" => (RowsRequest.ofDraft? d).map rows
  | "distinct" => (DistinctRequest.ofDraft? d).map distinct
  | _ => none

/-- Read a request. Nothing in it may be without a value, read or not. -/
def ofDraft? (d : Json.Draft) : Option Request := do
  let _ ← d.value?
  match d with
  | .object members =>
    let kind ← (← Parts.slot? members "kind")
    ofKind? (← kind.text?) (.object (members.filter (·.1 != "kind")))
  | .array (kind :: items) => ofKind? (← kind.text?) (.array items)
  | _ => none

def read? (s : String) : Option Request :=
  (Json.Draft.ofText? s).bind ofDraft?

end Request

end SnapshotAnalytics

import SnapshotAnalytics.Filter.Predicate
import SnapshotAnalytics.Query.Result
import SnapshotAnalytics.Report.Cell
import SnapshotAnalytics.Report.Window

/-!
# Listings

A listing shows the rows of a table at a snapshot, a page at a time, or the distinct values of one of
its fields.
-/

namespace SnapshotAnalytics

namespace Listing

/-- How many rows or values are listed at most. -/
def maxLimit : Nat := 10000

/-- The number of rows or values to list: at least one, and not more than the most. -/
def capped (limit : Nat) : Except AnalyticsError Nat :=
  if limit = 0 then .error .limitNotPositive else .ok (min limit maxLimit)

end Listing

/-! ## §1 Rows -/

/-- A request for rows: columns, all of them if none are given, filters, an order and a page. -/
structure RowsRequest where
  table : String
  columns : List String
  filters : List Filter
  orderBy : Option String
  descending : Bool
  limit : Nat
  offset : Nat
  asOf : Option Date
  deriving DecidableEq

namespace RowsRequest

/-- How many rows are listed unless a number is given. -/
def defaultLimit : Nat := 100

/-- The first rows of a table. -/
def ofTable (table : String) : RowsRequest :=
  ⟨table, [], [], none, false, defaultLimit, 0, none⟩

def members (r : RowsRequest) : List (String × Json) :=
  [("table", .text r.table), ("columns", .ofTexts r.columns),
    ("filters", Filter.listToJson r.filters), ("orderBy", .ofText? r.orderBy),
    ("descending", .bool r.descending), ("limit", .ofNat r.limit), ("offset", .ofNat r.offset),
    ("asOfDate", .ofText? (r.asOf.map Date.text))]

def toJson (r : RowsRequest) : Json :=
  .object r.members

def ofDraft? (d : Json.Draft) : Option RowsRequest := do
  match ← d.slots? ["table", "columns", "filters", "orderBy", "descending", "limit", "offset",
    "asOfDate"] with
  | [table, columns, filters, orderBy, descending, limit, offset, asOf] =>
    return {
      table := ← Slot.required Json.Draft.text? table
      columns := ← Slot.withDefault [] Json.Draft.texts? columns
      filters := ← Slot.withDefault [] (Json.Draft.list? Filter.ofDraft?) filters
      orderBy := ← Json.Draft.optional Json.Draft.text? orderBy
      descending := ← Slot.withDefault false Json.Draft.bool? descending
      limit := ← Slot.withDefault defaultLimit Json.Draft.count? limit
      offset := ← Slot.withDefault 0 Json.Draft.count? offset
      asOf := ← Json.Draft.optional Json.Draft.date? asOf }
  | _ => none

end RowsRequest

/-- A listing of rows whose parts have been checked. -/
structure RowsPlan where
  table : TableSchema
  request : RowsRequest
  columns : List String
  limit : Nat
  predicate : Predicate

namespace RowsPlan

def prepare (tables : TableRegistry) (r : RowsRequest) : Except AnalyticsError RowsPlan := do
  let table ← tables.table r.table
  r.columns.forM table.require
  let columns := if r.columns.isEmpty then table.fields.map (·.1) else r.columns
  r.orderBy.forM table.require
  let limit ← Listing.capped r.limit
  let predicate ← Predicate.compile table r.filters
  return ⟨table, r, columns, limit, predicate⟩

def select (plan : RowsPlan) (snapshot : Date) : Select where
  table := plan.table.name
  columns := plan.columns.map fun column => ⟨column, none⟩
  conditions := plan.table.dateCondition "=" "snapshot" snapshot :: plan.predicate.conditions
  order := (plan.request.orderBy.map fun column =>
    (⟨column, if plan.request.descending then some .descending else none⟩ : Ordered)).toList
  limit := some plan.limit
  offset := some plan.request.offset

end RowsPlan

/-- A page of rows. -/
structure RowsPage where
  columns : List String
  rows : List Record
  snapshot : Date
  limit : Nat
  offset : Nat

namespace RowsPage

def ofResult (plan : RowsPlan) (snapshot : Date) (r : QueryResult) : RowsPage :=
  ⟨plan.columns, r.records, snapshot, plan.limit, plan.request.offset⟩

def toJson (p : RowsPage) : Json :=
  .object [("columns", .ofTexts p.columns), ("rows", .array (p.rows.map .object)),
    ("snapshot", Window.dateToJson p.snapshot), ("limit", .ofNat p.limit),
    ("offset", .ofNat p.offset)]

def recordOfDraft? (d : Json.Draft) : Option Record :=
  match d.value? with
  | some (.object members) => some members
  | _ => none

def ofDraft? (d : Json.Draft) : Option RowsPage := do
  match ← d.slots? ["columns", "rows", "snapshot", "limit", "offset"] with
  | [columns, rows, snapshot, limit, offset] =>
    return {
      columns := ← Slot.required Json.Draft.texts? columns
      rows := ← Slot.required (Json.Draft.list? recordOfDraft?) rows
      snapshot := ← Slot.required Json.Draft.date? snapshot
      limit := ← Slot.required Json.Draft.count? limit
      offset := ← Slot.required Json.Draft.count? offset }
  | _ => none

end RowsPage

/-! ## §2 Distinct values -/

/-- A request for the distinct values of a field. -/
structure DistinctRequest where
  table : String
  field : String
  filters : List Filter
  limit : Nat
  asOf : Option Date
  deriving DecidableEq

namespace DistinctRequest

/-- How many values are listed unless a number is given. -/
def defaultLimit : Nat := 1000

def ofField (table field : String) : DistinctRequest :=
  ⟨table, field, [], defaultLimit, none⟩

def members (r : DistinctRequest) : List (String × Json) :=
  [("table", .text r.table), ("field", .text r.field), ("filters", Filter.listToJson r.filters),
    ("limit", .ofNat r.limit), ("asOfDate", .ofText? (r.asOf.map Date.text))]

def toJson (r : DistinctRequest) : Json :=
  .object r.members

def ofDraft? (d : Json.Draft) : Option DistinctRequest := do
  match ← d.slots? ["table", "field", "filters", "limit", "asOfDate"] with
  | [table, field, filters, limit, asOf] =>
    return {
      table := ← Slot.required Json.Draft.text? table
      field := ← Slot.required Json.Draft.text? field
      filters := ← Slot.withDefault [] (Json.Draft.list? Filter.ofDraft?) filters
      limit := ← Slot.withDefault defaultLimit Json.Draft.count? limit
      asOf := ← Json.Draft.optional Json.Draft.date? asOf }
  | _ => none

end DistinctRequest

/-- A listing of values whose parts have been checked. -/
structure DistinctPlan where
  table : TableSchema
  request : DistinctRequest
  limit : Nat
  predicate : Predicate

namespace DistinctPlan

def prepare (tables : TableRegistry) (r : DistinctRequest) :
    Except AnalyticsError DistinctPlan := do
  let table ← tables.table r.table
  table.require r.field
  let limit ← Listing.capped r.limit
  let predicate ← Predicate.compile table r.filters
  return ⟨table, r, limit, predicate⟩

def select (plan : DistinctPlan) (snapshot : Date) : Select where
  table := plan.table.name
  columns := [⟨s!"DISTINCT {plan.request.field}", some "value"⟩]
  conditions := plan.table.dateCondition "=" "snapshot" snapshot :: plan.predicate.conditions
  order := [⟨"value", none⟩]
  limit := some plan.limit

end DistinctPlan

/-- The distinct values of a field. -/
structure DistinctValues where
  field : String
  values : List String
  deriving DecidableEq

namespace DistinctValues

/-- The values that an answer holds: the first cell of each row, unless it is null. -/
def ofResult (plan : DistinctPlan) (r : QueryResult) : DistinctValues :=
  ⟨plan.request.field,
    ((r.rows.filterMap List.head?).filter fun cell => !cell.isNull).map Cell.label⟩

def toJson (v : DistinctValues) : Json :=
  .object [("field", .text v.field), ("values", .ofTexts v.values)]

def ofDraft? (d : Json.Draft) : Option DistinctValues := do
  match ← d.slots? ["field", "values"] with
  | [field, values] =>
    return {
      field := ← Slot.required Json.Draft.text? field
      values := ← Slot.required Json.Draft.texts? values }
  | _ => none

end DistinctValues

end SnapshotAnalytics

import SnapshotAnalytics.Cache.Key
import SnapshotAnalytics.Filter.Predicate
import SnapshotAnalytics.Measure.Basic
import SnapshotAnalytics.Query.Result
import SnapshotAnalytics.Report.Cell
import SnapshotAnalytics.Report.Comparison
import SnapshotAnalytics.Report.Window

/-!
# Stat cards

A stat card shows named measures over a whole snapshot, each beside the same measure at an earlier
snapshot.
-/

namespace SnapshotAnalytics

/-! ## §1 What is asked for -/

/-- A table and the measures to show. -/
structure StatCardSpec where
  table : String
  measures : List NamedMeasure
  deriving DecidableEq

namespace StatCardSpec

def members (spec : StatCardSpec) : List (String × Json) :=
  [("table", .text spec.table), ("measures", .array (spec.measures.map NamedMeasure.toJson))]

def toJson (spec : StatCardSpec) : Json :=
  .object spec.members

def memberNames : List String :=
  ["table", "measures"]

def ofSlots? : List (Option Json.Draft) → Option StatCardSpec
  | [table, measures] => do
    return {
      table := ← Slot.required Json.Draft.text? table
      measures := ← Slot.required (Json.Draft.list? NamedMeasure.ofDraft?) measures }
  | _ => none

def ofDraft? (d : Json.Draft) : Option StatCardSpec :=
  (d.slots? memberNames).bind ofSlots?

end StatCardSpec

/-- A request for a stat card. -/
structure StatCardRequest where
  spec : StatCardSpec
  filters : List Filter
  window : Window
  deriving DecidableEq

namespace StatCardRequest

def members (r : StatCardRequest) : List (String × Json) :=
  r.spec.members ++ ("filters", Filter.listToJson r.filters) :: r.window.members

def ofDraft? (d : Json.Draft) : Option StatCardRequest := do
  match ← d.mergedSlots? ["filters"] [] with
  | [filters] =>
    return {
      spec := ← (d.mergedSlots? [] StatCardSpec.memberNames).bind StatCardSpec.ofSlots?
      filters := ← Slot.withDefault [] (Json.Draft.list? Filter.ofDraft?) filters
      window := ← (d.mergedSlots? [] Window.memberNames).bind Window.ofSlots? }
  | _ => none

end StatCardRequest

/-! ## §2 Statements and keys -/

/-- A stat card whose parts have been checked. -/
structure StatCardPlan where
  table : TableSchema
  spec : StatCardSpec
  predicate : Predicate
  filters : List Filter

namespace StatCardPlan

def prepare (tables : TableRegistry) (spec : StatCardSpec) (filters : List Filter) :
    Except AnalyticsError StatCardPlan := do
  let table ← tables.table spec.table
  if spec.measures.isEmpty then
    throw .noMeasures
  spec.measures.forM (·.measure.check table)
  let predicate ← Predicate.compile table filters
  return ⟨table, spec, predicate, filters⟩

def select (plan : StatCardPlan) (snapshot : Date) : Select where
  table := plan.table.name
  columns := plan.spec.measures.mapIdx fun i m => ⟨m.measure.sql, some s!"value{i}"⟩
  conditions := plan.table.dateCondition "=" "snapshot" snapshot :: plan.predicate.conditions

def key (plan : StatCardPlan) (snapshot : Date) : CacheKey :=
  .statCard plan.table.name snapshot (CacheKey.fingerprint plan.spec.toJson)
    (CacheKey.fingerprint (Filter.listToJson plan.filters))

/-- The figures that an answer holds, zero where it has none. -/
def figures (plan : StatCardPlan) (r : QueryResult) : List Binary64 :=
  plan.spec.measures.mapIdx fun i _ => ((r.cell? 0 s!"value{i}").map Cell.figure).getD Amount.zero

end StatCardPlan

/-! ## §3 Metrics -/

/-- A named figure of a stat card. -/
structure StatMetric (α : Type) where
  name : String
  figures : Comparison α

namespace StatMetric

/-- The metrics of a stat card, given the figures of the snapshot and of the earlier one. -/
def ofFigures {α : Type} [Amount α] (spec : StatCardSpec) (current previous : List α) :
    List (StatMetric α) :=
  (spec.measures.zip (current.zip previous)).map fun (m, x, y) => ⟨m.name, .between x y⟩

def toJson (m : StatMetric Binary64) : Json :=
  .object (("name", .text m.name) :: m.figures.members)

def ofDraft? (d : Json.Draft) : Option (StatMetric Binary64) := do
  match ← d.mergedSlots? ["name"] Comparison.memberNames with
  | name :: figures =>
    return {
      name := ← Slot.required Json.Draft.text? name
      figures := ← Comparison.ofSlots? figures }
  | [] => none

end StatMetric

end SnapshotAnalytics

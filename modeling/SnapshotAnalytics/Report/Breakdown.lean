import SnapshotAnalytics.Cache.Key
import SnapshotAnalytics.Filter.Predicate
import SnapshotAnalytics.Measure.Ranking
import SnapshotAnalytics.Query.Result
import SnapshotAnalytics.Report.Cell
import SnapshotAnalytics.Report.Comparison
import SnapshotAnalytics.Report.Consolidation
import SnapshotAnalytics.Report.Window

/-!
# Breakdowns

A breakdown shows a measure for each group of a field, beside the same measure at an earlier
snapshot, with up to three further measures and the share of each group in the total. When few
groups are asked for, the eleven largest are shown and all others are merged into one row behind
them.
-/

namespace SnapshotAnalytics

/-! ## §1 What is asked for -/

/-- The main measure, the measures of the result slots, the order and the number of groups. -/
structure BreakdownSpec where
  table : String
  measure : Measure
  results : List Measure
  rankBy : RankBy
  direction : OrderDirection
  limit : Nat
  deriving DecidableEq

namespace BreakdownSpec

def maxResults : Nat := 3

/-- How many groups are shown unless a number is given. -/
def defaultLimit : Nat := 12

/-- A measure without result slots, the largest groups first. -/
def ofMeasure (table : String) (measure : Measure) : BreakdownSpec :=
  ⟨table, measure, [], .value, .descending, defaultLimit⟩

/-- Check the measures, that the order is by a slot that exists, and that some group is shown. -/
def check (spec : BreakdownSpec) (t : TableSchema) : Except AnalyticsError Unit := do
  if maxResults < spec.results.length then
    throw (.tooManyResults spec.results.length)
  spec.measure.check t
  spec.results.forM (·.check t)
  if spec.rankBy.slot?.any (spec.results.length ≤ ·) then
    throw (.missingResultSlot spec.rankBy.column spec.results.length)
  if spec.limit = 0 then
    throw .limitNotPositive

/-- The rule by which rows are merged. -/
def mergeRule (spec : BreakdownSpec) : MergeRule :=
  ⟨spec.measure.aggregation, spec.results.map (·.aggregation)⟩

def members (spec : BreakdownSpec) : List (String × Json) :=
  ("table", .text spec.table) :: spec.measure.members
    ++ [("results", .array (spec.results.map Measure.toJson)),
      ("orderBy", .text spec.rankBy.name),
      ("orderDirection", .text spec.direction.name),
      ("limit", .ofNat spec.limit)]

def toJson (spec : BreakdownSpec) : Json :=
  .object spec.members

def ownNames : List String :=
  ["table", "results", "orderBy", "orderDirection", "limit"]

def ofSlots? : List (Option Json.Draft) → Option BreakdownSpec
  | table :: results :: rankBy :: direction :: limit :: measure => do
    return {
      table := ← Slot.required Json.Draft.text? table
      measure := ← Measure.ofMergedSlots? measure
      results := ← Slot.withDefault [] (Json.Draft.list? Measure.ofDraft?) results
      rankBy := ← Slot.withDefault .value (Json.Draft.alternative? RankBy.ofName?) rankBy
      direction := ← Slot.withDefault .descending
        (Json.Draft.alternative? OrderDirection.ofName?) direction
      limit := ← Slot.withDefault defaultLimit Json.Draft.count? limit }
  | _ => none

def ofDraft? (d : Json.Draft) : Option BreakdownSpec :=
  (d.mergedSlots? ownNames Measure.memberNames).bind ofSlots?

end BreakdownSpec

/-- A request for a breakdown by a field. -/
structure BreakdownRequest where
  spec : BreakdownSpec
  groupBy : String
  filters : List Filter
  window : Window
  deriving DecidableEq

namespace BreakdownRequest

def members (r : BreakdownRequest) : List (String × Json) :=
  r.spec.members
    ++ [("groupBy", .text r.groupBy), ("filters", Filter.listToJson r.filters)]
    ++ r.window.members

def ofDraft? (d : Json.Draft) : Option BreakdownRequest := do
  match ← d.mergedSlots? ["groupBy", "filters"] [] with
  | [groupBy, filters] =>
    return {
      spec := ← BreakdownSpec.ofDraft? d
      groupBy := ← Slot.required Json.Draft.text? groupBy
      filters := ← Slot.withDefault [] (Json.Draft.list? Filter.ofDraft?) filters
      window := ← (d.mergedSlots? [] Window.memberNames).bind Window.ofSlots? }
  | _ => none

end BreakdownRequest

/-! ## §2 Statements and keys -/

/-- A breakdown whose parts have been checked. -/
structure BreakdownPlan where
  table : TableSchema
  spec : BreakdownSpec
  groupBy : String
  predicate : Predicate
  filters : List Filter

namespace BreakdownPlan

/-- Check a breakdown and compile its filters. -/
def prepare (tables : TableRegistry) (spec : BreakdownSpec) (groupBy : String)
    (filters : List Filter) : Except AnalyticsError BreakdownPlan := do
  let table ← tables.table spec.table
  spec.check table
  table.require groupBy
  let predicate ← Predicate.compile table filters
  return ⟨table, spec, groupBy, predicate, filters⟩

/-- The order of the statement: by value when the groups are consolidated, otherwise as asked for,
and by label among equals. -/
def order (plan : BreakdownPlan) : List Ordered :=
  if Consolidation.applies plan.spec.limit then
    -- which groups are the largest must not depend on how the rows are to be shown
    [⟨"value", some .descending⟩, ⟨"group_key", none⟩]
  else
    ⟨plan.spec.rankBy.column, some plan.spec.direction⟩ ::
      if plan.spec.rankBy = .group then [] else [⟨"group_key", none⟩]

def select (plan : BreakdownPlan) (snapshot : Date) : Select where
  table := plan.table.name
  columns := ⟨plan.groupBy, some "group_key"⟩ :: ⟨plan.spec.measure.sql, some "value"⟩ ::
    plan.spec.results.mapIdx fun i m => ⟨m.sql, some s!"result{i + 1}"⟩
  conditions := plan.table.dateCondition "=" "snapshot" snapshot :: plan.predicate.conditions
  groups := ["group_key"]
  order := plan.order
  limit := some (Consolidation.fetchLimit plan.spec.limit)

def key (plan : BreakdownPlan) (snapshot : Date) : CacheKey :=
  .breakdown plan.table.name plan.groupBy snapshot (CacheKey.fingerprint plan.spec.toJson)
    (CacheKey.fingerprint (Filter.listToJson plan.filters))

/-- The figure of a record under a name, zero when there is none. -/
def figureOf (record : Record) (name : String) : Binary64 :=
  ((Keyed.find? name record).map Cell.figure).getD Amount.zero

/-- The label of a record under a name, empty when there is none. -/
def labelOf (record : Record) (name : String) : String :=
  ((Keyed.find? name record).map Cell.label).getD ""

def groups (plan : BreakdownPlan) (r : QueryResult) : List (GroupValues Binary64) :=
  r.records.map fun record =>
    ⟨labelOf record "group_key", figureOf record "value",
      plan.spec.results.mapIdx fun i _ => figureOf record s!"result{i + 1}"⟩

end BreakdownPlan

/-! ## §3 Rows -/

/-- A result slot of a group and the same slot before. -/
structure ResultValue (α : Type) where
  current : α
  previous : α

/-- A row of a breakdown. -/
structure BreakdownRow (α : Type) where
  group : String
  figures : Comparison α
  results : List (ResultValue α)
  percentageOfTotal : α
  isOthers : Bool

namespace BreakdownRow

variable {α : Type} [Amount α]

/-- A row of its own. -/
def ofFigures (group : String) (current previous : α) (results : List (ResultValue α))
    (total : α) : BreakdownRow α :=
  ⟨group, .between current previous, results, Amount.percentage current total, false⟩

/-- The row as the one that stands for the others. -/
def asOthers (row : BreakdownRow α) : BreakdownRow α :=
  { row with isOthers := true }

/-- The row of a group beside the same group before; what there was not counts as zero. -/
def ofGroup (total : α) (current : GroupValues α) (previous : Option (GroupValues α)) :
    BreakdownRow α :=
  let before := (previous.map (·.results)).getD []
  ofFigures current.group current.value ((previous.map (·.value)).getD Amount.zero)
    (current.results.mapIdx fun i x => ⟨x, before.getD i Amount.zero⟩) total

def slot (row : BreakdownRow α) (i : Nat) : α :=
  ((row.results[i]?).map (·.current)).getD Amount.zero

/-- The order of rows by what groups are ordered by. -/
def rank (rankBy : RankBy) (x y : BreakdownRow α) : Ordering :=
  match rankBy.slot? with
  | some i => Amount.rank (x.slot i) (y.slot i)
  | none =>
    if rankBy = .group then compare x.group y.group
    else Amount.rank x.figures.current y.figures.current

/-- The order of rows in a direction, and by label among equals. -/
def directed (rankBy : RankBy) (direction : OrderDirection) (x y : BreakdownRow α) : Ordering :=
  let ordering := rank rankBy x y
  -- the label breaks ties upwards in either direction
  (match direction with
    | .ascending => ordering
    | .descending => ordering.swap).then (compare x.group y.group)

/-- Rows in order. -/
def sort (rankBy : RankBy) (direction : OrderDirection) (rows : List (BreakdownRow α)) :
    List (BreakdownRow α) :=
  rows.mergeSort fun x y => (directed rankBy direction x y).isLE

end BreakdownRow

namespace Breakdown

variable {α : Type} [Amount α]

/-- The group of a label; of several, the last one. -/
def groupOf? (groups : List (GroupValues α)) (label : String) : Option (GroupValues α) :=
  groups.reverse.find? (·.group == label)

/-- The row of each group, beside the same group before. -/
def rowsOf (total : α) (current previous : List (GroupValues α)) : List (BreakdownRow α) :=
  current.map fun g => .ofGroup total g (groupOf? previous g.group)

/-- The labels of the groups that stand for themselves. A group that is labelled like the merged one
is merged. -/
def keptLabels (current : List (GroupValues α)) : List String :=
  ((Consolidation.topGroups current.length current).filter
    (· != Consolidation.othersLabel)).take Consolidation.topCount

/-- The rows of a consolidated breakdown: the largest groups in order, then the others. -/
def consolidated (spec : BreakdownSpec) (total : α) (current previous : List (GroupValues α)) :
    List (BreakdownRow α) :=
  let keep := keptLabels current
  let rows := rowsOf total (Consolidation.kept keep current) previous
  -- the earlier snapshot is divided by the same labels, not by its own ranking
  let others := (Consolidation.others spec.mergeRule keep current).map fun g =>
    (BreakdownRow.ofGroup total g (Consolidation.others spec.mergeRule keep previous)).asOthers
  BreakdownRow.sort spec.rankBy spec.direction rows ++ others.toList

/-- The rows of a breakdown, given the groups of the snapshot and of the earlier one. -/
def rows (spec : BreakdownSpec) (current previous : List (GroupValues α)) :
    List (BreakdownRow α) :=
  -- the total is over the fetched groups, whether they are shown or merged
  let total := Amount.sum (current.map (·.value))
  if Consolidation.applies spec.limit then
    if Consolidation.topCount < current.length then
      consolidated spec total current previous
    else
      BreakdownRow.sort spec.rankBy spec.direction (rowsOf total current previous)
  else
    rowsOf total current previous

end Breakdown

/-! ## §4 JSON -/

namespace BreakdownRow

def resultToJson (r : ResultValue Binary64) : Json :=
  .object [("current", .ofAmount r.current), ("previous", .ofAmount r.previous)]

def resultOfDraft? (d : Json.Draft) : Option (ResultValue Binary64) := do
  match ← d.slots? ["current", "previous"] with
  | [current, previous] =>
    return {
      current := ← Slot.required Json.Draft.amount? current
      previous := ← Slot.required Json.Draft.amount? previous }
  | _ => none

def toJson (row : BreakdownRow Binary64) : Json :=
  .object (("group", .text row.group) :: row.figures.members
    ++ [("results", .array (row.results.map resultToJson)),
      ("percentageOfTotal", .ofAmount row.percentageOfTotal),
      ("isOthers", .bool row.isOthers)])

def ofDraft? (d : Json.Draft) : Option (BreakdownRow Binary64) := do
  match ← d.slots? ("group" :: Comparison.memberNames
    ++ ["results", "percentageOfTotal", "isOthers"]) with
  | [group, current, previous, change, changePercent, results, share, isOthers] =>
    return {
      group := ← Slot.required Json.Draft.text? group
      figures := ← Comparison.ofSlots? [current, previous, change, changePercent]
      results := ← Slot.required (Json.Draft.list? resultOfDraft?) results
      percentageOfTotal := ← Slot.required Json.Draft.amount? share
      isOthers := ← Slot.required Json.Draft.bool? isOthers }
  | _ => none

end BreakdownRow

end SnapshotAnalytics

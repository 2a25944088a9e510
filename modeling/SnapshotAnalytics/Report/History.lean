import SnapshotAnalytics.Report.Breakdown

/-!
# Histories

A history shows a measure at every snapshot up to a base date, as one series or for each group of a
field. Groups are ranked by the latest snapshot; when only some are asked for, the last place stands
for all groups that are not shown by themselves.
-/

namespace SnapshotAnalytics

/-! ## §1 What is asked for -/

/-- A table, a measure, and possibly a field to group by, a first date and a number of groups. -/
structure HistorySpec where
  table : String
  measure : Measure
  groupBy : Option String
  start : Option Date
  limit : Option Nat
  deriving DecidableEq

namespace HistorySpec

def members (spec : HistorySpec) : List (String × Json) :=
  ("table", .text spec.table) :: spec.measure.members
    ++ Json.member? "groupBy" (spec.groupBy.map .text)
    ++ Json.member? "start" (spec.start.map Window.dateToJson)
    ++ Json.member? "limit" (spec.limit.map .ofNat)

def toJson (spec : HistorySpec) : Json :=
  .object spec.members

def ownNames : List String :=
  ["table", "groupBy", "start", "limit"]

def ofSlots? : List (Option Json.Draft) → Option HistorySpec
  | table :: groupBy :: start :: limit :: measure => do
    return {
      table := ← Slot.required Json.Draft.text? table
      measure := ← Measure.ofMergedSlots? measure
      groupBy := ← Json.Draft.optional Json.Draft.text? groupBy
      start := ← Json.Draft.optional Json.Draft.date? start
      limit := ← Json.Draft.optional Json.Draft.count? limit }
  | _ => none

def ofDraft? (d : Json.Draft) : Option HistorySpec :=
  (d.mergedSlots? ownNames Measure.memberNames).bind ofSlots?

end HistorySpec

/-- A request for a history. -/
structure HistoryRequest where
  spec : HistorySpec
  filters : List Filter
  asOf : Option Date
  deriving DecidableEq

namespace HistoryRequest

def members (r : HistoryRequest) : List (String × Json) :=
  r.spec.members ++ ("filters", Filter.listToJson r.filters) ::
    Json.member? "asOfDate" (r.asOf.map Window.dateToJson)

def ofDraft? (d : Json.Draft) : Option HistoryRequest := do
  match ← d.mergedSlots? ["filters", "asOfDate"] [] with
  | [filters, asOf] =>
    return {
      spec := ← HistorySpec.ofDraft? d
      filters := ← Slot.withDefault [] (Json.Draft.list? Filter.ofDraft?) filters
      asOf := ← Json.Draft.optional Json.Draft.date? asOf }
  | _ => none

end HistoryRequest

/-! ## §2 Statements and keys -/

/-- A history whose parts have been checked. -/
structure HistoryPlan where
  table : TableSchema
  spec : HistorySpec
  predicate : Predicate
  filters : List Filter

namespace HistoryPlan

def prepare (tables : TableRegistry) (spec : HistorySpec) (filters : List Filter) :
    Except AnalyticsError HistoryPlan := do
  let table ← tables.table spec.table
  spec.measure.check table
  spec.groupBy.forM table.require
  match spec.limit with
  -- One place is kept for all other groups, so one more is needed for a group of its own.
  | some limit => if limit < 2 then throw (.historyTooShort limit)
  | none => pure ()
  let predicate ← Predicate.compile table filters
  return ⟨table, spec, predicate, filters⟩

/-- The statement that fetches the figures up to a base date. -/
def select (plan : HistoryPlan) (base : Date) : Select where
  table := plan.table.name
  columns := ⟨plan.table.dateColumn, some "snapshot"⟩
    :: (plan.spec.groupBy.map fun field => (⟨field, some "group_key"⟩ : Selected)).toList
    ++ [⟨plan.spec.measure.sql, some "value"⟩]
  -- Without a first date the history goes back as far as the table does.
  conditions := plan.table.dateCondition "<=" "base" base
    :: (plan.spec.start.map (plan.table.dateCondition ">=" "start")).toList
    ++ plan.predicate.conditions
  groups := "snapshot" :: (plan.spec.groupBy.map fun _ => "group_key").toList
  order := ⟨"snapshot", none⟩
    :: (plan.spec.groupBy.map fun _ => (⟨"group_key", none⟩ : Ordered)).toList

def key (plan : HistoryPlan) (base : Date) : CacheKey :=
  .history plan.table.name base (CacheKey.fingerprint plan.spec.toJson)
    (CacheKey.fingerprint (Filter.listToJson plan.filters))

end HistoryPlan

/-- The groups that an answer lists for each date in the given column, in ascending order; records
without a date are passed over. -/
def QueryResult.groupsByDate (column : String) (r : QueryResult) :
    List (Date × List (GroupValues Binary64)) :=
  Keyed.gather (r.records.filterMap fun record =>
    ((Keyed.find? column record).bind Cell.date?).map fun date =>
      (date, ⟨BreakdownPlan.labelOf record "group_key", BreakdownPlan.figureOf record "value", []⟩))

/-! ## §3 Series -/

/-- A group and its figure. -/
structure GroupFigure (α : Type) where
  group : String
  value : α

/-- The figures of a snapshot. -/
structure HistoryPoint (α : Type) where
  date : Date
  total : α
  groups : List (GroupFigure α)

/-- The shown groups and the figures of every snapshot, in ascending order. -/
structure HistorySeries (α : Type) where
  groups : List String
  points : List (HistoryPoint α)

namespace HistorySeries

variable {α : Type} [Amount α]

def length (s : HistorySeries α) : Nat :=
  s.points.length

def totalOf (groups : List (GroupValues α)) : α :=
  Amount.sum (groups.map (·.value))

def plain (snapshots : List (Date × List (GroupValues α))) : HistorySeries α :=
  ⟨[], snapshots.map fun (date, groups) => ⟨date, totalOf groups, []⟩⟩

/-- All labels: those of the latest snapshot by value, then the others by name. -/
def ranking (snapshots : List (Date × List (GroupValues α))) : List String :=
  let latest := (snapshots.getLast?.map (·.2)).getD []
  let ranked := Consolidation.topGroups latest.length latest
  let labels := snapshots.flatMap fun (_, groups) => groups.map (·.group)
  -- a keyed list sorts the labels and drops repeated ones
  let absent := (labels.filter fun label => !ranked.contains label).map fun label => (label, ())
  ranked ++ (Keyed.ofList absent).map (·.1)

/-- The labels that are shown by themselves, and whether all others are merged into a last one. -/
def shown (limit : Option Nat) (ranking : List String) : List String × Bool :=
  match limit with
  | some n =>
    if n < ranking.length then
      -- one of the `n` places is for the merged group
      ((ranking.filter (· != Consolidation.othersLabel)).take (n - 1), true)
    else
      (ranking, false)
  | none => (ranking, false)

/-- The figures of the shown groups at one snapshot, zero for a group that it does not have. -/
def shownFigures (labels : List String) (groups : List (GroupValues α)) : List (GroupFigure α) :=
  labels.map fun label =>
    ⟨label, ((Breakdown.groupOf? groups label).map (·.value)).getD Amount.zero⟩

/-- The figure of the groups that are not shown by themselves, zero if there are none. -/
def mergedFigure (a : Aggregation) (labels : List String) (groups : List (GroupValues α)) :
    GroupFigure α :=
  ⟨Consolidation.othersLabel,
    ((Consolidation.others ⟨a, []⟩ labels groups).map (·.value)).getD Amount.zero⟩

def grouped (a : Aggregation) (limit : Option Nat)
    (snapshots : List (Date × List (GroupValues α))) : HistorySeries α :=
  let (labels, merges) := shown limit (ranking snapshots)
  ⟨labels ++ if merges then [Consolidation.othersLabel] else [],
    snapshots.map fun (date, groups) =>
      ⟨date, totalOf groups, shownFigures labels groups
        ++ if merges then [mergedFigure a labels groups] else []⟩⟩

def ofSnapshots (spec : HistorySpec) (snapshots : List (Date × List (GroupValues α))) :
    HistorySeries α :=
  match spec.groupBy with
  | none => plain snapshots
  | some _ => grouped spec.measure.aggregation spec.limit snapshots

/-! ## §4 JSON -/

def figureToJson (g : GroupFigure Binary64) : Json :=
  .object [("group", .text g.group), ("value", .ofAmount g.value)]

/-- A list as JSON that is left out when it is empty. -/
def unlessEmpty (key : String) (items : List Json) : List (String × Json) :=
  if items.isEmpty then [] else [(key, .array items)]

def pointToJson (p : HistoryPoint Binary64) : Json :=
  .object ([("date", Window.dateToJson p.date), ("total", .ofAmount p.total)]
    ++ unlessEmpty "groups" (p.groups.map figureToJson))

def toJson (s : HistorySeries Binary64) : Json :=
  .object [("groups", .ofTexts s.groups), ("points", .array (s.points.map pointToJson))]

def figureOfDraft? (d : Json.Draft) : Option (GroupFigure Binary64) := do
  match ← d.slots? ["group", "value"] with
  | [group, value] =>
    return {
      group := ← Slot.required Json.Draft.text? group
      value := ← Slot.required Json.Draft.amount? value }
  | _ => none

def pointOfDraft? (d : Json.Draft) : Option (HistoryPoint Binary64) := do
  match ← d.slots? ["date", "total", "groups"] with
  | [date, total, groups] =>
    return {
      date := ← Slot.required Json.Draft.date? date
      total := ← Slot.required Json.Draft.amount? total
      groups := ← Slot.withDefault [] (Json.Draft.list? figureOfDraft?) groups }
  | _ => none

def ofDraft? (d : Json.Draft) : Option (HistorySeries Binary64) := do
  match ← d.slots? ["groups", "points"] with
  | [groups, points] =>
    return {
      groups := ← Slot.required Json.Draft.texts? groups
      points := ← Slot.required (Json.Draft.list? pointOfDraft?) points }
  | _ => none

end HistorySeries

end SnapshotAnalytics

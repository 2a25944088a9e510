import SnapshotAnalytics.Report.History

/-!
# Maturity profiles

A maturity profile shows a measure for each month of maturity from a snapshot on, with the running
sum up to each month and what then remains, for all groups together and for each group of a field.
-/

namespace SnapshotAnalytics

/-! ## §1 What is asked for -/

/-- A table, a measure, and possibly a field of maturity dates and a field to group by. -/
structure MaturitySpec where
  table : String
  measure : Measure
  maturityField : Option String
  groupBy : Option String
  deriving DecidableEq

namespace MaturitySpec

def members (spec : MaturitySpec) : List (String × Json) :=
  ("table", .text spec.table) :: spec.measure.members
    ++ Json.member? "maturityField" (spec.maturityField.map .text)
    ++ Json.member? "groupBy" (spec.groupBy.map .text)

def toJson (spec : MaturitySpec) : Json :=
  .object spec.members

def ownNames : List String :=
  ["table", "maturityField", "groupBy"]

def ofSlots? : List (Option Json.Draft) → Option MaturitySpec
  | table :: maturityField :: groupBy :: measure => do
    return {
      table := ← Slot.required Json.Draft.text? table
      measure := ← Measure.ofMergedSlots? measure
      maturityField := ← Json.Draft.optional Json.Draft.text? maturityField
      groupBy := ← Json.Draft.optional Json.Draft.text? groupBy }
  | _ => none

def ofDraft? (d : Json.Draft) : Option MaturitySpec :=
  (d.mergedSlots? ownNames Measure.memberNames).bind ofSlots?

end MaturitySpec

/-- A request for a maturity profile. -/
structure MaturityRequest where
  spec : MaturitySpec
  filters : List Filter
  asOf : Option Date
  deriving DecidableEq

namespace MaturityRequest

def members (r : MaturityRequest) : List (String × Json) :=
  r.spec.members ++ ("filters", Filter.listToJson r.filters) ::
    Json.member? "asOfDate" (r.asOf.map Window.dateToJson)

def ofDraft? (d : Json.Draft) : Option MaturityRequest := do
  match ← d.mergedSlots? ["filters", "asOfDate"] [] with
  | [filters, asOf] =>
    return {
      spec := ← MaturitySpec.ofDraft? d
      filters := ← Slot.withDefault [] (Json.Draft.list? Filter.ofDraft?) filters
      asOf := ← Json.Draft.optional Json.Draft.date? asOf }
  | _ => none

end MaturityRequest

/-! ## §2 Statements and keys -/

/-- A maturity profile whose parts have been checked. -/
structure MaturityPlan where
  table : TableSchema
  spec : MaturitySpec
  maturity : String
  predicate : Predicate
  filters : List Filter

namespace MaturityPlan

/-- The field of the maturity dates: the one asked for, or the maturity column of the table. -/
def maturityOf (t : TableSchema) (spec : MaturitySpec) : Except AnalyticsError String :=
  match spec.maturityField <|> t.maturityColumn with
  | some field => .ok field
  | none => .error (.noMaturityColumn t.name)

def prepare (tables : TableRegistry) (spec : MaturitySpec) (filters : List Filter) :
    Except AnalyticsError MaturityPlan := do
  let table ← tables.table spec.table
  spec.measure.check table
  let maturity ← maturityOf table spec
  -- The column may also have been declared as a field, and then as something else.
  if (← table.kindOf maturity) ≠ .date then
    throw (.maturityNotADate maturity)
  spec.groupBy.forM table.require
  let predicate ← Predicate.compile table filters
  return ⟨table, spec, maturity, predicate, filters⟩

def select (plan : MaturityPlan) (snapshot : Date) : Select where
  table := plan.table.name
  columns := ⟨s!"toStartOfMonth({plan.maturity})", some "month"⟩
    :: (plan.spec.groupBy.map fun field => (⟨field, some "group_key"⟩ : Selected)).toList
    ++ [⟨plan.spec.measure.sql, some "value"⟩]
  conditions := plan.table.dateCondition "=" "snapshot" snapshot
    :: Fragment.comparison plan.maturity ">=" ⟨"from", .date, snapshot.text⟩
    :: plan.predicate.conditions
  groups := "month" :: (plan.spec.groupBy.map fun _ => "group_key").toList
  order := ⟨"month", none⟩
    :: (plan.spec.groupBy.map fun _ => (⟨"group_key", none⟩ : Ordered)).toList

def key (plan : MaturityPlan) (snapshot : Date) : CacheKey :=
  .maturity plan.table.name snapshot (CacheKey.fingerprint plan.spec.toJson)
    (CacheKey.fingerprint (Filter.listToJson plan.filters))

end MaturityPlan

/-! ## §3 Series -/

/-- A month, its amount, the sum up to it and the sum behind it. -/
structure MaturityPoint (α : Type) where
  month : Date
  amount : α
  cumulative : α
  remaining : α

/-- The months of one group. -/
structure MaturityGroup (α : Type) where
  group : String
  points : List (MaturityPoint α)

/-- The months of all groups together and of each group. -/
structure MaturitySeries (α : Type) where
  total : List (MaturityPoint α)
  groups : List (MaturityGroup α)

namespace MaturitySeries

variable {α : Type} [Amount α]

/-- The points of months, given their sum and the sum of the months before. -/
def pointsFrom (total running : α) : List (Date × α) → List (MaturityPoint α)
  | [] => []
  | (month, amount) :: months =>
    -- `remaining` is taken from the whole sum, so rounding does not pile up in it
    let cumulative := Amount.add running amount
    ⟨month, amount, cumulative, Amount.sub total cumulative⟩ :: pointsFrom total cumulative months

def sumOf (months : List (Date × α)) : α :=
  Amount.sum (months.map (·.2))

def cumulate (months : List (Date × α)) : List (MaturityPoint α) :=
  pointsFrom (sumOf months) Amount.zero months

/-- The amount of each month: its groups merged. -/
def monthly (a : Aggregation) (months : List (Date × List (GroupValues α))) : List (Date × α) :=
  months.map fun (month, groups) =>
    (month, (((MergeRule.mk a []).merge "total" groups).map (·.value)).getD Amount.zero)

/-- The months of each group, by its label. -/
def byGroup (months : List (Date × List (GroupValues α))) : List (String × List (Date × α)) :=
  Keyed.gather (months.flatMap fun (month, groups) =>
    groups.map fun g => (g.group, (month, g.value)))

/-- The order of groups by sum, the largest first, and by label among equals. -/
def bySum (x y : String × List (Date × α)) : Ordering :=
  (Amount.rank (sumOf y.2) (sumOf x.2)).then (compare x.1 y.1)

/-- The points of each group, in order. -/
def profiles (months : List (Date × List (GroupValues α))) : List (MaturityGroup α) :=
  ((byGroup months).mergeSort fun x y => (bySum x y).isLE).map fun (group, months) =>
    ⟨group, cumulate months⟩

def ofMonths (spec : MaturitySpec) (months : List (Date × List (GroupValues α))) :
    MaturitySeries α :=
  ⟨cumulate (monthly spec.measure.aggregation months),
    if spec.groupBy.isSome then profiles months else []⟩

/-! ## §4 JSON -/

def pointToJson (p : MaturityPoint Binary64) : Json :=
  .object [("month", Window.dateToJson p.month), ("amount", .ofAmount p.amount),
    ("cumulative", .ofAmount p.cumulative), ("remaining", .ofAmount p.remaining)]

def groupToJson (g : MaturityGroup Binary64) : Json :=
  .object [("group", .text g.group), ("points", .array (g.points.map pointToJson))]

def toJson (s : MaturitySeries Binary64) : Json :=
  .object (("total", .array (s.total.map pointToJson))
    :: HistorySeries.unlessEmpty "groups" (s.groups.map groupToJson))

def pointOfDraft? (d : Json.Draft) : Option (MaturityPoint Binary64) := do
  match ← d.slots? ["month", "amount", "cumulative", "remaining"] with
  | [month, amount, cumulative, remaining] =>
    return {
      month := ← Slot.required Json.Draft.date? month
      amount := ← Slot.required Json.Draft.amount? amount
      cumulative := ← Slot.required Json.Draft.amount? cumulative
      remaining := ← Slot.required Json.Draft.amount? remaining }
  | _ => none

def groupOfDraft? (d : Json.Draft) : Option (MaturityGroup Binary64) := do
  match ← d.slots? ["group", "points"] with
  | [group, points] =>
    return {
      group := ← Slot.required Json.Draft.text? group
      points := ← Slot.required (Json.Draft.list? pointOfDraft?) points }
  | _ => none

def ofDraft? (d : Json.Draft) : Option (MaturitySeries Binary64) := do
  match ← d.slots? ["total", "groups"] with
  | [total, groups] =>
    return {
      total := ← Slot.required (Json.Draft.list? pointOfDraft?) total
      groups := ← Slot.withDefault [] (Json.Draft.list? groupOfDraft?) groups }
  | _ => none

end MaturitySeries

end SnapshotAnalytics

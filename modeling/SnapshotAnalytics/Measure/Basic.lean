import SnapshotAnalytics.Table.Schema

/-!
# Measures

A measure aggregates one field of a table; a weighted average takes its weights from a second field.
Cells are read as numbers, and those that are not numbers count as zero, except where only their
presence is counted.
-/

namespace SnapshotAnalytics

/-- How a field is aggregated. -/
inductive Aggregation where
  | sum
  | count
  | avg
  | min
  | max
  | countDistinct
  | weightedAvg
  deriving DecidableEq

namespace Aggregation

def name : Aggregation → String
  | sum => "sum"
  | count => "count"
  | avg => "avg"
  | min => "min"
  | max => "max"
  | countDistinct => "countDistinct"
  | weightedAvg => "weightedAvg"

def ofName? (s : String) : Option Aggregation :=
  [sum, count, avg, min, max, countDistinct, weightedAvg].find? (·.name == s)

def isNumeric : Aggregation → Bool
  | count | countDistinct => false
  | _ => true

end Aggregation

/-- A field, its aggregation and, for a weighted average, the field of the weights. -/
structure Measure where
  field : String
  aggregation : Aggregation
  weight : Option String
  deriving DecidableEq

namespace Measure

def sum (field : String) : Measure :=
  ⟨field, .sum, none⟩

/-- The average of a field, weighted by another one. -/
def weightedAvg (field weight : String) : Measure :=
  ⟨field, .weightedAvg, some weight⟩

/-- Check that the fields are declared and that a weighted average has weights. -/
def check (m : Measure) (t : TableSchema) : Except AnalyticsError Unit := do
  t.require m.field
  if m.aggregation = .weightedAvg then
    match m.weight with
    | some weight => t.require weight
    | none => .error (.missingWeight m.field)

/-! ## §1 SQL -/

/-- A field read as a number, zero where it is none. -/
def numeric (field : String) : String :=
  s!"toFloat64OrZero(toString({field}))"

/-- A measure as an SQL expression. A weighted average without weight is zero. -/
def sql (m : Measure) : String :=
  let x := numeric m.field
  match m.aggregation with
  | .sum => s!"sum({x})"
  | .avg => s!"avg({x})"
  | .min => s!"min({x})"
  | .max => s!"max({x})"
  | .count => s!"count({m.field})"
  | .countDistinct => s!"uniqExact({m.field})"
  | .weightedAvg =>
    let w := numeric (m.weight.getD m.field)
    s!"ifNull(sum({x} * {w}) / nullIf(sum({w}), 0), 0)"

/-! ## §2 JSON -/

def members (m : Measure) : List (String × Json) :=
  [("field", .text m.field), ("aggregation", .text m.aggregation.name)]
    ++ Json.member? "weightField" (m.weight.map .text)

def toJson (m : Measure) : Json :=
  .object m.members

def memberNames : List String :=
  ["field", "aggregation", "weightField"]

/-- Read a measure from the slots of its members, its aggregation by the given reader. -/
def ofSlots? (aggregation? : Json.Draft → Option Aggregation) :
    List (Option Json.Draft) → Option Measure
  | [field, aggregation, weight] => do
    return {
      field := ← Slot.required Json.Draft.text? field
      aggregation := ← Slot.required aggregation? aggregation
      weight := ← Json.Draft.optional Json.Draft.text? weight }
  | _ => none

def ofMergedSlots? : List (Option Json.Draft) → Option Measure :=
  ofSlots? (Json.Draft.mergedAlternative? Aggregation.ofName?)

def ofDraft? (d : Json.Draft) : Option Measure :=
  (d.slots? memberNames).bind (ofSlots? (Json.Draft.alternative? Aggregation.ofName?))

end Measure

/-- A measure with a name. -/
structure NamedMeasure where
  name : String
  measure : Measure
  deriving DecidableEq

namespace NamedMeasure

def toJson (m : NamedMeasure) : Json :=
  .object (("name", .text m.name) :: m.measure.members)

def ofDraft? (d : Json.Draft) : Option NamedMeasure := do
  match ← d.mergedSlots? ["name"] Measure.memberNames with
  | name :: rest =>
    return {
      name := ← Slot.required Json.Draft.text? name
      measure := ← Measure.ofMergedSlots? rest }
  | [] => none

end NamedMeasure

end SnapshotAnalytics

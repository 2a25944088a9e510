import SnapshotAnalytics.Filter.Operator
import SnapshotAnalytics.Json.Reading

/-!
# Filters

A filter compares a field with values. A filter without values asks for nothing.
-/

namespace SnapshotAnalytics

/-- A field, an operator and values. -/
structure Filter where
  field : String
  operator : Operator
  values : List String
  deriving DecidableEq

namespace Filter

def equals (field value : String) : Filter :=
  ⟨field, .equals, [value]⟩

def notEquals (field value : String) : Filter :=
  ⟨field, .notEquals, [value]⟩

def contains (field value : String) : Filter :=
  ⟨field, .contains, [value]⟩

def oneOf (field : String) (values : List String) : Filter :=
  ⟨field, .oneOf, values⟩

def toJson (f : Filter) : Json :=
  .object [("field", .text f.field), ("operator", .text f.operator.spelling),
    ("values", .ofTexts f.values)]

def listToJson (filters : List Filter) : Json :=
  .array (filters.map toJson)

/-- Read a filter; values may be left out. -/
def ofDraft? (d : Json.Draft) : Option Filter := do
  match ← d.slots? ["field", "operator", "values"] with
  | [field, operator, values] =>
    return {
      field := ← Slot.required Json.Draft.text? field
      operator := Operator.read (← Slot.required Json.Draft.text? operator)
      values := ← Slot.withDefault [] Json.Draft.texts? values }
  | _ => none

end Filter

end SnapshotAnalytics

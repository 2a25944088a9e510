import SnapshotAnalytics.Json.Reading
import SnapshotAnalytics.Number.Amount

/-!
# Comparisons

A figure beside the one it is compared with, the difference of the two, and the difference in
percent of the earlier one.
-/

namespace SnapshotAnalytics

/-- A figure, the one before, and how it changed. -/
structure Comparison (α : Type) where
  current : α
  previous : α
  change : α
  changePercent : α

namespace Comparison

/-- Compare two figures. The change from nothing has no percentage and counts as zero. -/
def between {α : Type} [Amount α] (current previous : α) : Comparison α :=
  let change := Amount.sub current previous
  ⟨current, previous, change, Amount.percentage change previous⟩

def members (c : Comparison Binary64) : List (String × Json) :=
  [("current", .ofAmount c.current), ("previous", .ofAmount c.previous),
    ("change", .ofAmount c.change), ("changePercent", .ofAmount c.changePercent)]

def memberNames : List String :=
  ["current", "previous", "change", "changePercent"]

def ofSlots? : List (Option Json.Draft) → Option (Comparison Binary64)
  | [current, previous, change, changePercent] => do
    return {
      current := ← Slot.required Json.Draft.amount? current
      previous := ← Slot.required Json.Draft.amount? previous
      change := ← Slot.required Json.Draft.amount? change
      changePercent := ← Slot.required Json.Draft.amount? changePercent }
  | _ => none

def toJson (c : Comparison Binary64) : Json :=
  .object c.members

def ofDraft? (d : Json.Draft) : Option (Comparison Binary64) :=
  (d.slots? memberNames).bind ofSlots?

end Comparison

end SnapshotAnalytics

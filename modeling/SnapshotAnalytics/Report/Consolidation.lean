import SnapshotAnalytics.Measure.Basic
import SnapshotAnalytics.Number.Amount

/-!
# Consolidation

A long list of groups is shown as its largest groups and one more that stands for all the others.
The others are merged column by column, from the first to the last: a minimum of minima, a maximum of
maxima, and a sum for every other aggregation.
-/

namespace SnapshotAnalytics

/-- The figures of a group: its main value and its result slots. -/
structure GroupValues (α : Type) where
  group : String
  value : α
  results : List α

/-! ## §1 Limits -/

namespace Consolidation

/-- How many groups stand for themselves. -/
def topCount : Nat := 11

/-- The largest number of shown groups that makes a list be consolidated. -/
def smallLimit : Nat := 12

def fetchCount : Nat := 100

/-- The label of the group that stands for the others. -/
def othersLabel : String := "Others"

def applies (limit : Nat) : Bool :=
  limit ≤ smallLimit

def fetchLimit (limit : Nat) : Nat :=
  if applies limit then fetchCount else limit

end Consolidation

/-! ## §2 Merging -/

section Merging

variable {α : Type} [Amount α]

def Aggregation.combine (a : Aggregation) (x y : α) : α :=
  match a with
  | .min => Amount.smaller x y
  | .max => Amount.greater x y
  -- averages are added up as well
  | _ => Amount.add x y

/-- How groups are merged: the aggregation of the main value and of each result slot. -/
structure MergeRule where
  value : Aggregation
  results : List Aggregation

namespace MergeRule

/-- The result slots of a group, as many as there are aggregations; missing slots are zero. -/
def slots (rule : MergeRule) (results : List α) : List α :=
  rule.results.mapIdx fun i _ => results.getD i Amount.zero

/-- Merge a group into the ones merged before. -/
def step (rule : MergeRule) (merged row : GroupValues α) : GroupValues α where
  group := merged.group
  value := rule.value.combine merged.value row.value
  results := (rule.results.zip (merged.results.zip (rule.slots row.results))).map
    fun (a, x, y) => a.combine x y

/-- The groups merged from the first to the last under a label; there is none if there is no group. -/
def merge (rule : MergeRule) (label : String) : List (GroupValues α) → Option (GroupValues α)
  | [] => none
  -- the first group is the start of the fold: no amount is neutral for every aggregation
  | row :: rows =>
    some (rows.foldl rule.step ⟨label, row.value, rule.slots row.results⟩)

end MergeRule

/-! ## §3 Ranking and folding -/

namespace Consolidation

/-- The order of groups by value, the largest first, and by label among equals. -/
def byValue (x y : GroupValues α) : Ordering :=
  (Amount.rank y.value x.value).then (compare x.group y.group)

/-- The labels of the `n` first groups by value. -/
def topGroups (n : Nat) (rows : List (GroupValues α)) : List String :=
  ((rows.mergeSort fun x y => (byValue x y).isLE).take n).map (·.group)

def kept (keep : List String) (rows : List (GroupValues α)) : List (GroupValues α) :=
  rows.filter fun row => keep.contains row.group

def rest (keep : List String) (rows : List (GroupValues α)) : List (GroupValues α) :=
  rows.filter fun row => !keep.contains row.group

/-- The groups whose labels are not kept as one group, if there are any. -/
def others (rule : MergeRule) (keep : List String) (rows : List (GroupValues α)) :
    Option (GroupValues α) :=
  rule.merge othersLabel (rest keep rows)

end Consolidation

end Merging

end SnapshotAnalytics

import SnapshotAnalytics.Report.Breakdown

/-!
# Parts of a breakdown

A breakdown is made of the rows of its own groups and, if it is consolidated, of one row for all others.
Whatever does not depend on the order of the rows follows from these parts.
-/

namespace SnapshotAnalytics.Breakdown

open Consolidation

variable {α : Type}

/-! ## §1 Parts -/

/-- A breakdown is consolidated if few groups are asked for and there are more than are kept. -/
def Consolidates (spec : BreakdownSpec) (current : List (GroupValues α)) : Prop :=
  spec.limit ≤ 12 ∧ 11 < current.length

instance (spec : BreakdownSpec) (current : List (GroupValues α)) :
    Decidable (Consolidates spec current) :=
  inferInstanceAs (Decidable (_ ∧ _))

variable [Amount α]

/-- The groups that have rows of their own. -/
def ownGroups (spec : BreakdownSpec) (current : List (GroupValues α)) : List (GroupValues α) :=
  if Consolidates spec current then kept (keptLabels current) current else current

/-- The rows of the groups that have rows of their own, in the order of the groups. -/
def ownRows (spec : BreakdownSpec) (current previous : List (GroupValues α)) :
    List (BreakdownRow α) :=
  rowsOf (Amount.sum (current.map (·.value))) (ownGroups spec current) previous

/-- The row of all other groups, if there is one. -/
def othersRow (spec : BreakdownSpec) (current previous : List (GroupValues α)) :
    Option (BreakdownRow α) :=
  if Consolidates spec current then
    (others spec.mergeRule (keptLabels current) current).map fun g =>
      (BreakdownRow.ofGroup (Amount.sum (current.map (·.value))) g
        (others spec.mergeRule (keptLabels current) previous)).asOthers
  else none

/-! ## §2 Rows -/

variable {spec : BreakdownSpec} {current previous : List (GroupValues α)}

/-- With a small limit the own rows are sorted, and the row of the others stands behind them. -/
theorem rows_of_small (hlimit : spec.limit ≤ 12) (current previous : List (GroupValues α)) :
    rows spec current previous =
      BreakdownRow.sort spec.rankBy spec.direction (ownRows spec current previous) ++
        (othersRow spec current previous).toList := by
  have happlies : applies spec.limit = true := decide_eq_true hlimit
  rw [rows, if_pos happlies]
  by_cases hmany : 11 < current.length
  · have hboth : Consolidates spec current := ⟨hlimit, hmany⟩
    rw [if_pos (show topCount < current.length from hmany), ownRows, ownGroups, othersRow,
      if_pos hboth, if_pos hboth]
    rfl
  · have hnot : ¬ Consolidates spec current := fun h => hmany h.2
    rw [if_neg (show ¬ topCount < current.length from hmany), ownRows, ownGroups, othersRow,
      if_neg hnot, if_neg hnot, Option.toList_none, List.append_nil]

/-- The rows are the own rows and the row of the others. -/
theorem rows_perm (spec : BreakdownSpec) (current previous : List (GroupValues α)) :
    (rows spec current previous).Perm
      (ownRows spec current previous ++ (othersRow spec current previous).toList) := by
  by_cases hlimit : spec.limit ≤ 12
  · rw [rows_of_small hlimit]
    exact (List.mergeSort_perm _ _).append_right _
  · -- A long breakdown is neither consolidated nor sorted.
    have hnot : ¬ Consolidates spec current := fun h => hlimit h.1
    have happlies : ¬ applies spec.limit = true := fun h => hlimit (of_decide_eq_true h)
    rw [rows, if_neg happlies, ownRows, ownGroups, othersRow, if_neg hnot, if_neg hnot,
      Option.toList_none, List.append_nil]

theorem ownGroups_sublist : (ownGroups spec current).Sublist current := by
  unfold ownGroups
  split
  · exact List.filter_sublist
  · exact List.Sublist.refl current

/-- A row is that of a current group beside the earlier group of its label, or it stands for the merged
groups beside the merged earlier ones. -/
theorem of_mem_rows {row : BreakdownRow α} (h : row ∈ rows spec current previous) :
    let total := Amount.sum (current.map (·.value))
    (∃ g ∈ current, row = .ofGroup total g (groupOf? previous g.group)) ∨
      ∃ g, others spec.mergeRule (keptLabels current) current = some g ∧
        row = (BreakdownRow.ofGroup total g
          (others spec.mergeRule (keptLabels current) previous)).asOthers := by
  rcases List.mem_append.mp ((rows_perm spec current previous).mem_iff.mp h) with hown | hothers
  · obtain ⟨g, hg, rfl⟩ := List.mem_map.mp hown
    exact Or.inl ⟨g, ownGroups_sublist.subset hg, rfl⟩
  · rw [Option.mem_toList, othersRow] at hothers
    split at hothers
    · obtain ⟨g, hg, rfl⟩ := Option.map_eq_some_iff.mp hothers
      exact Or.inr ⟨g, hg, rfl⟩
    · cases hothers

theorem map_group_ownRows (spec : BreakdownSpec) (current previous : List (GroupValues α)) :
    (ownRows spec current previous).map (·.group) = (ownGroups spec current).map (·.group) :=
  List.map_map

end SnapshotAnalytics.Breakdown

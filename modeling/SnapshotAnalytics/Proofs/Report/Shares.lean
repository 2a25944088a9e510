import SnapshotAnalytics.Proofs.Report.DistinctLabels
import Mathlib.Algebra.BigOperators.Ring.List

/-!
# Sums of a breakdown

Read as exact numbers, the rows of a breakdown account for all current groups: each group is in a row
of its own or in the row of the others, so current figures add up to the total and shares to a hundred
percent. A consolidated breakdown accounts for all earlier groups as well, as long as no label is
repeated. All of this asks that the main figures of merged groups are added up.
-/

namespace SnapshotAnalytics

open Consolidation

/-! ## §1 Exact shares -/

namespace Amount

theorem percentage_exact (part whole : ℚ) :
    percentage part whole = if whole = 0 then 0 else part / whole * 100 :=
  ite_congr (decide_eq_true_eq) (fun _ => rfl) (fun _ => rfl)

/-- Shares in one whole add up to the share of all parts. -/
theorem sum_map_percentage (parts : List ℚ) (whole : ℚ) :
    (parts.map fun part => percentage part whole).sum = percentage parts.sum whole := by
  simp only [percentage_exact]
  split
  · exact List.sum_eq_zero (by simp)
  · simp only [div_eq_mul_inv, List.sum_map_mul_right, List.map_id']

end Amount

namespace Breakdown

variable {spec : BreakdownSpec} {current previous : List (GroupValues ℚ)}

/-! ## §2 Current figures -/

/-- Kept groups and the others make up all groups. -/
theorem sum_kept_add_sum_rest (keep : List String) (groups : List (GroupValues ℚ)) :
    ((kept keep groups).map (·.value)).sum + ((rest keep groups).map (·.value)).sum =
      (groups.map (·.value)).sum := by
  rw [← List.sum_append, ← List.map_append]
  exact ((List.filter_append_perm _ groups).map _).sum_eq

theorem sum_toList {M : Type} [AddMonoid M] (x : Option M) : x.toList.sum = x.getD 0 := by
  cases x <;> simp

/-- The row of the others shows the sum of the groups that are not kept, if there are any. -/
theorem sum_current_othersRow (hmin : spec.measure.aggregation ≠ .min)
    (hmax : spec.measure.aggregation ≠ .max) (hboth : Consolidates spec current) :
    ((othersRow spec current previous).toList.map (·.figures.current)).sum =
      ((rest (keptLabels current) current).map (·.value)).sum := by
  rw [othersRow, if_pos hboth, ← Option.toList_map, Option.map_map, sum_toList,
    ← Aggregation.combineAll_exact hmin hmax]
  exact spec.mergeRule.value_merge othersLabel (rest (keptLabels current) current)

/-- **Current figures add up to the total.** -/
theorem sum_current_rows (hmin : spec.measure.aggregation ≠ .min)
    (hmax : spec.measure.aggregation ≠ .max) :
    ((rows spec current previous).map (·.figures.current)).sum = (current.map (·.value)).sum := by
  have hown : (ownRows spec current previous).map (·.figures.current) =
      (ownGroups spec current).map (·.value) := List.map_map
  rw [((rows_perm spec current previous).map _).sum_eq, List.map_append, List.sum_append, hown]
  by_cases hboth : Consolidates spec current
  · rw [sum_current_othersRow hmin hmax hboth, ownGroups, if_pos hboth, sum_kept_add_sum_rest]
  · -- Without consolidation every group has a row of its own.
    rw [othersRow, if_neg hboth, ownGroups, if_neg hboth]
    exact add_zero _

theorem sum_percentage_rows (hmin : spec.measure.aggregation ≠ .min)
    (hmax : spec.measure.aggregation ≠ .max) :
    ((rows spec current previous).map (·.percentageOfTotal)).sum =
      Amount.percentage (current.map (·.value)).sum (current.map (·.value)).sum := by
  have hshares : (rows spec current previous).map (·.percentageOfTotal) =
      ((rows spec current previous).map (·.figures.current)).map fun figure =>
        Amount.percentage figure (current.map (·.value)).sum := by
    rw [List.map_map]
    apply List.map_congr_left
    intro row hrow
    rw [percentage_of_mem_rows hrow, Amount.sum_exact]
    rfl
  rw [hshares, Amount.sum_map_percentage, sum_current_rows hmin hmax]

/-! ## §3 Earlier figures -/

/-- **Earlier figures add up**: in a consolidated breakdown every earlier group counts in one row. -/
theorem sum_previous_rows (hmin : spec.measure.aggregation ≠ .min)
    (hmax : spec.measure.aggregation ≠ .max) (hboth : Consolidates spec current)
    (hcurrent : (current.map (·.group)).Nodup) (hprevious : (previous.map (·.group)).Nodup) :
    ((rows spec current previous).map (·.figures.previous)).sum =
      (previous.map (·.value)).sum := by
  let keep := keptLabels current
  have hlabels : ((rows spec current previous).map (·.group)).Nodup :=
    nodup_rows_iff.mpr (hcurrent.sublist (ownGroups_sublist.map _))
  -- Each earlier group goes under a kept label or under the merged one, and all of these are shown.
  have hmem : ∀ g ∈ previous, shownAs keep g ∈ (rows spec current previous).map (·.group) := by
    intro g _
    rw [(labels_perm hboth hcurrent previous).mem_iff, List.mem_append, List.mem_singleton]
    exact shownAs_cases keep g
  have hfigures : (rows spec current previous).map (·.figures.previous) =
      ((rows spec current previous).map (·.group)).map fun label =>
        (((counted keep previous).filter fun g => shownAs keep g = label).map (·.value)).sum := by
    rw [List.map_map]
    apply List.map_congr_left
    intro row hrow
    rw [previous_of_mem_rows hboth hrow, Aggregation.combineAll_exact hmin hmax]
    rfl
  rw [hfigures, sum_shown_add_overwritten hlabels hmem, overwritten_eq_nil keep hprevious]
  exact (add_zero _).symm

/-! ## §4 All sums -/

/-- **Shares add up**: read as exact numbers, the current figures of a breakdown add up to the total of
the current groups and its shares to a hundred percent, or all shares are zero where the total is. The
earlier figures of a consolidated breakdown add up to the total of the earlier groups. -/
theorem rows_addUp (spec : BreakdownSpec) (current previous : List (GroupValues ℚ))
    (hmin : spec.measure.aggregation ≠ .min) (hmax : spec.measure.aggregation ≠ .max) :
    let shown := rows spec current previous
    let total := (current.map (·.value)).sum
    (shown.map (·.figures.current)).sum = total ∧
      (total ≠ 0 → (shown.map (·.percentageOfTotal)).sum = 100) ∧
      (total = 0 → ∀ row ∈ shown, row.percentageOfTotal = 0) ∧
      (Consolidates spec current → (current.map (·.group)).Nodup → (previous.map (·.group)).Nodup →
        (shown.map (·.figures.previous)).sum = (previous.map (·.value)).sum) := by
  intro shown total
  refine ⟨sum_current_rows hmin hmax, ?_, ?_, sum_previous_rows hmin hmax⟩
  · intro htotal
    rw [sum_percentage_rows hmin hmax, Amount.percentage_exact, if_neg htotal, div_self htotal,
      one_mul]
  · intro htotal row hrow
    rw [percentage_of_mem_rows hrow, Amount.sum_exact, Amount.percentage_exact, if_pos htotal]

/-! Gains and losses of thirteen desks, one of them labelled like the merged row, beside earlier ones of
desks that are kept, merged, or no longer there. -/

/-- Groups with the given figures. -/
def desksWith (figures : List (String × ℚ)) : List (GroupValues ℚ) :=
  figures.map fun (label, figure) => ⟨label, figure, []⟩

theorem rows_addUp_desks :
    let spec : BreakdownSpec := ⟨"deals", .sum "gain", [], .value, .descending, 12⟩
    let current := desksWith [("a", 9), ("b", 8), ("c", 7), ("d", 6), ("e", 5), ("f", 4), ("g", 3),
      ("h", 2), ("i", 1), ("j", 0), ("k", -1), ("l", -7 / 2), ("Others", 5 / 2)]
    let previous := desksWith [("l", 4), ("a", -3), ("m", 1 / 3), ("Others", 7)]
    let shown := rows spec current previous
    (shown.map (·.figures.current)).sum = 43 ∧ (shown.map (·.percentageOfTotal)).sum = 100 ∧
      (shown.map (·.figures.previous)).sum = 25 / 3 := by
  intro spec current previous shown
  obtain ⟨hcurrent, hshares, _, hprevious⟩ :=
    rows_addUp spec current previous (by decide) (by decide)
  -- A group that is called like the merged one counts in it, so the sums are those of all groups.
  have htotal : (current.map (·.value)).sum = 43 := by decide +kernel
  have hearlier : (previous.map (·.value)).sum = 25 / 3 := by decide +kernel
  refine ⟨hcurrent.trans htotal, hshares ?_, (hprevious ?_ ?_ ?_).trans hearlier⟩
  · rw [htotal]
    decide
  · decide
  · decide
  · decide

end Breakdown

end SnapshotAnalytics

import SnapshotAnalytics.Proofs.Report.Merging
import SnapshotAnalytics.Proofs.Report.Ranking
import Mathlib.Data.List.Perm.Subperm

/-!
# Consolidated breakdowns

A breakdown of more than eleven groups with a small limit has twelve rows: the eleven first groups,
each beside the earlier group of its label, and one row that stands for all other groups of either
snapshot. No group is left out and none is counted twice, since the kept labels are those of the
current snapshot for both.
-/

namespace SnapshotAnalytics

variable {α : Type}

/-! ## §1 What the rows show -/

namespace BreakdownRow

variable [Amount α]

/-- A row that shows a group beside the earlier group of its label; what there was not is zero. -/
structure Shows (row : BreakdownRow α) (g : GroupValues α) (earlier : List (GroupValues α)) :
    Prop where
  isOthers : row.isOthers = false
  group : row.group = g.group
  current : row.figures.current = g.value
  slots : row.results.map (·.current) = g.results
  present : ∀ p ∈ earlier, p.group = g.group →
    row.figures.previous = p.value ∧
      row.results.map (·.previous) = (List.range g.results.length).map p.slot
  absent : (∀ p ∈ earlier, p.group ≠ g.group) →
    row.figures.previous = Amount.zero ∧ ∀ slot ∈ row.results, slot.previous = Amount.zero

/-- A row that stands for groups and for earlier groups: each column is their combination. -/
structure StandsFor (row : BreakdownRow α) (spec : BreakdownSpec)
    (groups earlier : List (GroupValues α)) : Prop where
  isOthers : row.isOthers = true
  group : row.group = Consolidation.othersLabel
  current : row.figures.current = spec.measure.aggregation.combineAll (groups.map (·.value))
  previous : row.figures.previous = spec.measure.aggregation.combineAll (earlier.map (·.value))
  slots : row.results = spec.results.mapIdx fun i m =>
    ⟨m.aggregation.combineAll (groups.map (·.slot i)),
      m.aggregation.combineAll (earlier.map (·.slot i))⟩

end BreakdownRow

namespace Breakdown

/-! ## §2 Groups beside earlier groups -/

/-- The group of a label is the only one with it. -/
theorem groupOf?_eq_some {groups : List (GroupValues α)} (h : (groups.map (·.group)).Nodup)
    {p : GroupValues α} (hp : p ∈ groups) : groupOf? groups p.group = some p := by
  -- The look-up starts at the end, but there is only one group to be found.
  cases hfind : groupOf? groups p.group with
  | none =>
    have hnone := List.find?_eq_none.mp hfind p (List.mem_reverse.mpr hp)
    exact absurd (beq_self_eq_true p.group) hnone
  | some q =>
    have hgroup : q.group = p.group := by
      unfold groupOf? at hfind
      simpa using List.find?_some hfind
    have hq : q ∈ groups := List.mem_reverse.mp (List.mem_of_find?_eq_some hfind)
    rw [List.inj_on_of_nodup_map h hq hp hgroup]

theorem groupOf?_eq_none {groups : List (GroupValues α)} {label : String}
    (h : ∀ p ∈ groups, p.group ≠ label) : groupOf? groups label = none := by
  refine List.find?_eq_none.mpr fun p hp => ?_
  rw [beq_iff_eq]
  exact h p (List.mem_reverse.mp hp)

variable [Amount α]

theorem shows_ofGroup (total : α) (g : GroupValues α) {earlier : List (GroupValues α)}
    (h : (earlier.map (·.group)).Nodup) :
    (BreakdownRow.ofGroup total g (groupOf? earlier g.group)).Shows g earlier where
  isOthers := rfl
  group := rfl
  current := rfl
  slots := by
    apply List.ext_getElem?
    intro i
    simp only [BreakdownRow.ofGroup, BreakdownRow.ofFigures, List.getElem?_map,
      List.getElem?_mapIdx]
    cases g.results[i]? with
    | none => rfl
    | some x => rfl
  present := by
    intro p hp hgroup
    rw [← hgroup, groupOf?_eq_some h hp]
    refine ⟨rfl, ?_⟩
    apply List.ext_getElem?
    intro i
    -- A result that the current group does not have has no slot in the row.
    by_cases hi : i < g.results.length
    · simp [BreakdownRow.ofGroup, BreakdownRow.ofFigures, GroupValues.slot, hi]
    · simp [BreakdownRow.ofGroup, BreakdownRow.ofFigures, hi]
  absent := by
    intro hnone
    rw [groupOf?_eq_none hnone]
    refine ⟨rfl, ?_⟩
    intro slot hslot
    obtain ⟨i, hi, rfl⟩ := List.mem_mapIdx.mp hslot
    rfl

/-! ## §3 The merged row -/

/-- The merged groups of an earlier snapshot, column by column; without any, every column is zero. -/
theorem others_columns (rule : MergeRule) (keep : List String) (groups : List (GroupValues α)) :
    ((Consolidation.others rule keep groups).map (·.value)).getD Amount.zero =
        rule.value.combineAll ((Consolidation.rest keep groups).map (·.value)) ∧
      ∀ i a, rule.results[i]? = some a →
        (((Consolidation.others rule keep groups).map (·.results)).getD []).getD i Amount.zero =
          a.combineAll ((Consolidation.rest keep groups).map (·.slot i)) := by
  unfold Consolidation.others
  cases Consolidation.rest keep groups with
  | nil => exact ⟨rfl, fun _ _ _ => rfl⟩
  | cons row rows =>
    obtain ⟨merged, hmerge, hmerged⟩ := rule.merge_cons Consolidation.othersLabel row rows
    rw [hmerge]
    exact ⟨hmerged.value, hmerged.slot⟩

/-- Where some group is left, the groups that are left are merged. -/
theorem others_eq_some (rule : MergeRule) {keep : List String} {groups : List (GroupValues α)}
    (h : Consolidation.rest keep groups ≠ []) :
    ∃ merged, Consolidation.others rule keep groups = some merged ∧
      rule.Merges Consolidation.othersLabel (Consolidation.rest keep groups) merged := by
  obtain ⟨first, others, hrest⟩ := List.exists_cons_of_ne_nil h
  rw [Consolidation.others, hrest]
  exact rule.merge_cons Consolidation.othersLabel first others

/-- The row of the merged groups stands for them and for the merged earlier groups. -/
theorem standsFor_others (spec : BreakdownSpec) (total : α) (keep : List String)
    {groups earlier : List (GroupValues α)} {merged : GroupValues α}
    (h : spec.mergeRule.Merges Consolidation.othersLabel (Consolidation.rest keep groups) merged) :
    ((BreakdownRow.ofGroup total merged
        (Consolidation.others spec.mergeRule keep earlier)).asOthers).StandsFor spec
      (Consolidation.rest keep groups) (Consolidation.rest keep earlier) where
  isOthers := rfl
  group := h.group
  current := h.value
  previous := (others_columns spec.mergeRule keep earlier).1
  slots := by
    -- Merged slots and asked-for measures stand in the same places, one to one.
    have hlength : merged.results.length = spec.results.length := by
      rw [show merged.results.length = spec.mergeRule.results.length from h.fits,
        BreakdownSpec.mergeRule, List.length_map]
    apply List.ext_getElem?
    intro i
    simp only [BreakdownRow.asOthers, BreakdownRow.ofGroup, BreakdownRow.ofFigures,
      List.getElem?_mapIdx]
    cases hm : spec.results[i]? with
    | none =>
      rw [List.getElem?_eq_none_iff] at hm
      rw [List.getElem?_eq_none_iff.mpr (hlength ▸ hm)]
      rfl
    | some m =>
      obtain ⟨hi, _⟩ := List.getElem?_eq_some_iff.mp hm
      have hrule : spec.mergeRule.results[i]? = some m.aggregation := by
        rw [BreakdownSpec.mergeRule, List.getElem?_map, hm]
        rfl
      rw [merged.getElem?_results (hlength ▸ hi), Option.map_some, Option.map_some, h.slot i _ hrule,
        (others_columns spec.mergeRule keep earlier).2 i _ hrule]

/-! ## §4 All rows -/

section Kept

variable {keep : List String} {groups : List (GroupValues α)}

/-- The kept groups have the kept labels. -/
theorem kept_labels_perm {count : Nat} (hkeep : Consolidation.IsTop count groups keep)
    (hgroups : (groups.map (·.group)).Nodup) :
    ((Consolidation.kept keep groups).map (·.group)).Perm keep := by
  have hnodup : ((Consolidation.kept keep groups).map (·.group)).Nodup :=
    hgroups.sublist (List.filter_sublist.map _)
  -- Neither list repeats a label, so they only have to have the same ones.
  rw [List.perm_ext_iff_of_nodup hnodup hkeep.nodup]
  intro label
  constructor
  · intro hlabel
    obtain ⟨g, hg, rfl⟩ := List.mem_map.mp hlabel
    simpa using (List.mem_filter.mp hg).2
  · intro hlabel
    obtain ⟨g, hg, rfl⟩ := hkeep.labels label hlabel
    exact List.mem_map_of_mem (List.mem_filter.mpr ⟨hg, by simpa using hlabel⟩)

/-- Fewer labels are kept than there are groups, so some group is left. -/
theorem rest_ne_nil {count : Nat} (hkeep : Consolidation.IsTop count groups keep)
    (hmany : count < groups.length) (hgroups : (groups.map (·.group)).Nodup) :
    Consolidation.rest keep groups ≠ [] := by
  intro hnil
  -- All labels would be kept, and there are more of them than are kept.
  have hall : ∀ label ∈ groups.map (·.group), label ∈ keep := by
    intro label hlabel
    obtain ⟨g, hg, rfl⟩ := List.mem_map.mp hlabel
    simpa using List.filter_eq_nil_iff.mp hnil g hg
  have hle := (List.Nodup.subperm hgroups hall).length_le
  rw [List.length_map, hkeep.length] at hle
  omega

end Kept

/-- **The top groups and the others**: a breakdown of more than eleven groups with a limit of at most
twelve has eleven rows for the first groups, and behind them one row for all others. -/
theorem rows_topAndOthers (spec : BreakdownSpec) (current previous : List (GroupValues Binary64))
    (hlimit : spec.limit ≤ 12) (hmany : 11 < current.length)
    (hcurrent : (current.map (·.group)).Nodup) (hprevious : (previous.map (·.group)).Nodup) :
    ∃ keep shown bucket,
      rows spec current previous = shown ++ [bucket] ∧
      shown.length = 11 ∧
      Consolidation.IsTop 11 current keep ∧
      (shown.map (·.group)).Perm keep ∧
      (∀ row ∈ shown, ∃ g ∈ current, row.Shows g previous) ∧
      bucket.StandsFor spec (Consolidation.rest keep current)
        (Consolidation.rest keep previous) := by
  -- What is kept is decided by the current snapshot alone, and leaves some group to be merged.
  have hkeep := Consolidation.isTop_keptLabels hmany hcurrent
  obtain ⟨merged, hothers, hmerged⟩ :=
    others_eq_some spec.mergeRule (rest_ne_nil hkeep hmany hcurrent)
  let total := Amount.sum (current.map (·.value))
  let plain := rowsOf total (Consolidation.kept (keptLabels current) current) previous
  have hrows : rows spec current previous =
      BreakdownRow.sort spec.rankBy spec.direction plain ++
        [(BreakdownRow.ofGroup total merged
          (Consolidation.others spec.mergeRule (keptLabels current) previous)).asOthers] := by
    have happlies : Consolidation.applies spec.limit = true := decide_eq_true hlimit
    have hlong : Consolidation.topCount < current.length := hmany
    rw [rows, if_pos happlies, if_pos hlong, consolidated, hothers]
    rfl
  -- Sorting moves the rows about and changes none of them.
  have hperm : (BreakdownRow.sort spec.rankBy spec.direction plain).Perm plain :=
    List.mergeSort_perm plain _
  have hlabels : (plain.map (·.group)).Perm (keptLabels current) := by
    have hgroups : plain.map (·.group) =
        (Consolidation.kept (keptLabels current) current).map (·.group) :=
      List.map_map
    rw [hgroups]
    exact kept_labels_perm hkeep hcurrent
  refine ⟨keptLabels current, _, _, hrows, ?_, hkeep, (hperm.map _).trans hlabels, ?_, ?_⟩
  · rw [hperm.length_eq, ← List.length_map (·.group), hlabels.length_eq]
    exact hkeep.length
  · intro row hrow
    obtain ⟨g, hg, rfl⟩ := List.mem_map.mp (hperm.mem_iff.mp hrow)
    exact ⟨g, (List.mem_filter.mp hg).1, shows_ofGroup total g hprevious⟩
  · exact standsFor_others spec total (keptLabels current) hmerged

/-! Thirteen current groups, two by two of the same value and one of them labelled like the merged row,
beside earlier groups of which one is no longer there. -/

/-- Groups with the given labels. -/
def labelled (labels : List String) : List (GroupValues Binary64) :=
  labels.mapIdx fun i label => ⟨label, .ofNat (i / 2), [.ofNat i]⟩

/-- The sum of a field, with its smallest value in a slot. -/
def sumAndMinimum : BreakdownSpec :=
  ⟨"positions", .sum "notional", [⟨"notional", .min, none⟩], .value, .descending, 12⟩

theorem rows_topAndOthers_labelled :
    let current := labelled ["a", "b", "c", "Others", "d", "e", "f", "g", "h", "i", "j", "k", "l"]
    let previous := labelled ["l", "m", "a"]
    ∃ keep shown bucket,
      rows sumAndMinimum current previous = shown ++ [bucket] ∧
      shown.length = 11 ∧
      Consolidation.IsTop 11 current keep ∧
      (shown.map (·.group)).Perm keep ∧
      (∀ row ∈ shown, ∃ g ∈ current, row.Shows g previous) ∧
      bucket.StandsFor sumAndMinimum (Consolidation.rest keep current)
        (Consolidation.rest keep previous) :=
  rows_topAndOthers sumAndMinimum _ _ (by decide) (by decide) (by decide) (by decide)

end Breakdown

end SnapshotAnalytics

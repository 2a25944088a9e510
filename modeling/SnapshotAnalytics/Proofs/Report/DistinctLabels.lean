import SnapshotAnalytics.Proofs.Engine.FetchLimit
import SnapshotAnalytics.Proofs.Report.Accounting
import SnapshotAnalytics.Proofs.Report.RowParts

/-!
# Labels of breakdowns

The rows of a breakdown are those of its own groups, and one more for all others if the breakdown is
consolidated. So no label is shown twice exactly if the own groups have different labels. A consolidated
breakdown then has twelve rows, and each earlier group goes under one of their labels: it counts there,
or a later group with its label overwrites it.
-/

namespace SnapshotAnalytics

open Consolidation

namespace Breakdown

variable {α : Type} [Amount α] {spec : BreakdownSpec} {current previous : List (GroupValues α)}

/-! ## §1 Labels -/

theorem othersLabel_not_mem_keptLabels (current : List (GroupValues α)) :
    othersLabel ∉ keptLabels current := by
  intro hothers
  have hkept := (List.mem_filter.mp (List.mem_of_mem_take hothers)).2
  simp at hkept

/-- The row of the others is labelled as such, and no own group is. -/
theorem othersRow_label {row : BreakdownRow α} (h : othersRow spec current previous = some row) :
    row.group = othersLabel ∧ othersLabel ∉ (ownGroups spec current).map (·.group) := by
  unfold othersRow at h
  split at h
  · rename_i hboth
    obtain ⟨merged, hmerged, rfl⟩ := Option.map_eq_some_iff.mp h
    constructor
    · exact MergeRule.group_of_merge hmerged
    · rw [ownGroups, if_pos hboth]
      -- An own group has a kept label, and the merged one is never kept.
      intro hothers
      obtain ⟨g, hg, hlabel⟩ := List.mem_map.mp hothers
      have hkept : g.group ∈ keptLabels current := by simpa using (List.mem_filter.mp hg).2
      exact othersLabel_not_mem_keptLabels current (hlabel ▸ hkept)
  · cases h

/-- No label is shown twice exactly if the groups with rows of their own have different labels. -/
theorem nodup_rows_iff :
    ((rows spec current previous).map (·.group)).Nodup ↔
      ((ownGroups spec current).map (·.group)).Nodup := by
  rw [((rows_perm spec current previous).map _).nodup_iff, List.map_append, map_group_ownRows]
  -- The label of the others, if they have a row, is none of those of the own rows.
  cases hothers : othersRow spec current previous with
  | none => simp
  | some row =>
    obtain ⟨hlabel, hnot⟩ := othersRow_label hothers
    rw [Option.toList_some, List.map_singleton, hlabel, List.nodup_append']
    simp [hnot]

/-! ## §2 Consolidated breakdowns -/

/-- The earlier figure of a row is made of the earlier groups that count under its label. -/
theorem previous_of_mem_rows (hboth : Consolidates spec current) {row : BreakdownRow α}
    (hrow : row ∈ rows spec current previous) :
    row.figures.previous = spec.measure.aggregation.combineAll
      (((counted (keptLabels current) previous).filter fun g =>
        shownAs (keptLabels current) g = row.group).map (·.value)) := by
  have hothers := othersLabel_not_mem_keptLabels current
  -- Under a kept label the last earlier group counts, under the merged one all groups that are left.
  rcases List.mem_append.mp ((rows_perm spec current previous).mem_iff.mp hrow) with hown | hrest
  · rw [ownRows, ownGroups, if_pos hboth] at hown
    obtain ⟨g, hg, rfl⟩ := List.mem_map.mp hown
    have hkept : g.group ∈ keptLabels current := by simpa using (List.mem_filter.mp hg).2
    exact figure_own _ (fun h => absurd h hothers) hkept
  · rw [Option.mem_toList] at hrest
    rw [(othersRow_label hrest).1]
    rw [othersRow, if_pos hboth] at hrest
    obtain ⟨merged, _, rfl⟩ := Option.map_eq_some_iff.mp hrest
    exact figure_others spec.mergeRule hothers previous

/-- When the groups have different labels, some group is left for the row of the others. -/
theorem exists_othersRow [Amount.Ranked α] (hboth : Consolidates spec current)
    (hcurrent : (current.map (·.group)).Nodup) (previous : List (GroupValues α)) :
    ∃ row, othersRow spec current previous = some row := by
  obtain ⟨merged, hmerged, _⟩ := others_eq_some spec.mergeRule
    (rest_ne_nil (isTop_keptLabels hboth.2 hcurrent) hboth.2 hcurrent)
  rw [othersRow, if_pos hboth, hmerged]
  exact ⟨_, rfl⟩

/-- The labels of a consolidated breakdown: the kept ones and the merged one. -/
theorem labels_perm [Amount.Ranked α] (hboth : Consolidates spec current)
    (hcurrent : (current.map (·.group)).Nodup) (previous : List (GroupValues α)) :
    ((rows spec current previous).map (·.group)).Perm (keptLabels current ++ [othersLabel]) := by
  obtain ⟨row, hrow⟩ := exists_othersRow hboth hcurrent previous
  refine ((rows_perm spec current previous).map _).trans ?_
  rw [List.map_append, map_group_ownRows, hrow, Option.toList_some, List.map_singleton,
    (othersRow_label hrow).1, ownGroups, if_pos hboth]
  exact (kept_labels_perm (isTop_keptLabels hboth.2 hcurrent) hcurrent).append_right _

end Breakdown

/-! ## §3 Breakdowns of what is fetched -/

/-- Records whose labels are texts are read as groups with different labels. -/
theorem BreakdownPlan.nodup_groups {plan : BreakdownPlan} {r : QueryResult}
    (hcells : r.CellsApart ["group_key"]) (hlabels : r.TextLabels) :
    ((plan.groups r).map (·.group)).Nodup := by
  rw [groups, List.map_map, List.Nodup, List.pairwise_map]
  refine hcells.imp_of_mem fun {x y} hx hy hapart => ?_
  obtain ⟨label, hx⟩ := hlabels x hx
  obtain ⟨label', hy⟩ := hlabels y hy
  obtain ⟨column, hcolumn, hne⟩ := hapart
  obtain rfl := List.mem_singleton.mp hcolumn
  exact labelOf_ne hx hy hne

namespace Engine

open Breakdown

/-- A breakdown is made of the groups of both answers. -/
theorem breakdownAt_run {e : Engine} {s : Surroundings Id} {plan : BreakdownPlan}
    {current comparison : Date} {st st' : CacheState} {r r' : QueryResult}
    (hfetch : (e.fetchPair s .figures .comparedFigures (e.breakdownFetch plan current)
      (e.breakdownFetch plan comparison)).run.run st = (.ok (r, r'), st')) :
    (e.breakdownAt s plan current comparison).run.run st =
      (.ok (Breakdown.rows plan.spec (plan.groups r) (plan.groups r')), st') := by
  rw [breakdownAt, CacheM.run_bind, hfetch]
  rfl

/-- **No label is shown twice and no earlier group is lost, unless labels are repeated**: whatever is
fetched for an accepted breakdown. Labels are unique exactly if those of the groups with rows of their
own are, and the earlier figure of a consolidated row is made of the earlier groups that count under its
label. If the current groups have different labels, a consolidated breakdown has twelve rows, and each
earlier group counts in exactly one of them or is overwritten; and if the earlier groups have different
labels, none is. Groups have different labels if their cells are different texts. -/
theorem breakdownAt_labels (e : Engine) (s : Surroundings Id) {spec : BreakdownSpec}
    {groupBy : String} {filters : List Filter} {plan : BreakdownPlan}
    (hplan : BreakdownPlan.prepare e.tables spec groupBy filters = .ok plan)
    (current comparison : Date) {st st' : CacheState} {r r' : QueryResult}
    (hfetch : (e.fetchPair s .figures .comparedFigures (e.breakdownFetch plan current)
      (e.breakdownFetch plan comparison)).run.run st = (.ok (r, r'), st')) :
    let groups := plan.groups r
    let earlier := plan.groups r'
    let keep := keptLabels groups
    ∃ rows, (e.breakdownAt s plan current comparison).run.run st = (.ok rows, st') ∧
      ((rows.map (·.group)).Nodup ↔ ((ownGroups spec groups).map (·.group)).Nodup) ∧
      (Consolidates spec groups → ∀ row ∈ rows, row.figures.previous =
        spec.measure.aggregation.combineAll (((counted keep earlier).filter fun g =>
          shownAs keep g = row.group).map (·.value))) ∧
      ((groups.map (·.group)).Nodup → (rows.map (·.group)).Nodup ∧
        (Consolidates spec groups → rows.length = 12 ∧
          ((rows.flatMap fun row => (counted keep earlier).filter fun g =>
            shownAs keep g = row.group) ++ overwritten keep earlier).Perm earlier)) ∧
      ((earlier.map (·.group)).Nodup → counted keep earlier = earlier) ∧
      ∀ answer ∈ [r, r'], answer.CellsApart ["group_key"] → answer.TextLabels →
        ((plan.groups answer).map (·.group)).Nodup := by
  obtain ⟨_, rfl, _⟩ := BreakdownPlan.prepared hplan
  intro groups earlier keep
  refine ⟨_, breakdownAt_run hfetch, nodup_rows_iff, ?_, ?_, counted_eq_self keep,
    fun _ _ => BreakdownPlan.nodup_groups⟩
  · intro hboth row hrow
    exact previous_of_mem_rows hboth hrow
  · intro hgroups
    have hnodup : ((Breakdown.rows plan.spec groups earlier).map (·.group)).Nodup := by
      rw [nodup_rows_iff]
      exact hgroups.sublist (ownGroups_sublist.map _)
    refine ⟨hnodup, fun hboth => ?_⟩
    have hlabels := labels_perm hboth hgroups earlier
    constructor
    · have hlength := hlabels.length_eq
      rw [List.length_map, List.length_append, (isTop_keptLabels hboth.2 hgroups).length] at hlength
      exact hlength
    · -- Each earlier group goes under a kept label or under the merged one, and both are shown.
      have hmem : ∀ g ∈ earlier, shownAs keep g ∈
          (Breakdown.rows plan.spec groups earlier).map (·.group) := by
        intro g _
        rw [hlabels.mem_iff, List.mem_append, List.mem_singleton]
        exact shownAs_cases keep g
      have hparts := perm_shown_overwritten hnodup hmem
      rw [List.flatMap_map] at hparts
      exact hparts

/-! Deals of more than twelve desks in February, beside deals of a few desks in January. -/

/-- The sizes of the twelve largest desks, the last place for all others. -/
def twelveDesks : BreakdownPlan :=
  ⟨deals, ⟨"deals", .sum "size", [], .value, .descending, 12⟩, "desk", [], []⟩

/-- An engine that sends every query. -/
def uncachedEngine : Engine :=
  ⟨⟨"v", false⟩, [("deals", deals)], .default⟩

/-- Records of desks and sizes. -/
def deskSizes (rows : List (Json × Nat)) : QueryResult :=
  .ofRows [⟨"group_key", .string, true⟩, ⟨"value", .natural, false⟩]
    (rows.map fun (desk, size) => [desk, .ofNat size]) 3

/-- A warehouse that holds deals of two days. -/
def dealsSurroundings (inFebruary inJanuary : QueryResult) : Surroundings Id :=
  .calm ⟨"deals", fun _ q =>
      if (Parameter.find? "snapshot" q.parameters).map (·.value) = some "20230131" then .ok inJanuary
      else .ok inFebruary, .ok ()⟩ .inTurn .epoch

theorem fetchPair_deals (inFebruary inJanuary : QueryResult) :
    ∃ st', (uncachedEngine.fetchPair (dealsSurroundings inFebruary inJanuary) .figures
      .comparedFigures (uncachedEngine.breakdownFetch twelveDesks february)
      (uncachedEngine.breakdownFetch twelveDesks january)).run.run .initial =
        (.ok (inFebruary, inJanuary), st') :=
  ⟨_, rfl⟩

/-- Ten desks, the first of them the largest one. -/
def tenDesks : List (Json × Nat) :=
  ["a", "b", "c", "d", "e", "f", "g", "h", "i", "j"].mapIdx fun i desk => (.text desk, 100 - i)

theorem breakdownAt_labels_deals :
    let inFebruary := deskSizes (tenDesks ++ [(.null, 50), (.text "y", 40), (.text "z", 30)])
    let inJanuary := deskSizes [(.text "z", 4), (.text "x", 2), (.null, 1), (.text "b", 8)]
    let earlier := twelveDesks.groups inJanuary
    let keep := keptLabels (twelveDesks.groups inFebruary)
    ∃ rows st', (uncachedEngine.breakdownAt (dealsSurroundings inFebruary inJanuary) twelveDesks
        february january).run.run .initial = (.ok rows, st') ∧
      (rows.map (·.group)).Nodup ∧ rows.length = 12 ∧
      (rows.flatMap fun row => earlier.filter fun g => shownAs keep g = row.group).Perm earlier := by
  intro inFebruary inJanuary earlier keep
  have hplan : BreakdownPlan.prepare uncachedEngine.tables twelveDesks.spec "desk" [] =
      .ok twelveDesks := rfl
  obtain ⟨st', hfetch⟩ := fetchPair_deals inFebruary inJanuary
  obtain ⟨rows, hrun, _, _, hdistinct, hcounted, _⟩ :=
    breakdownAt_labels uncachedEngine _ hplan february january hfetch
  -- The earlier desks have different labels, so none of them is overwritten.
  have hearlier : (earlier.map (·.group)).Nodup := by decide +kernel
  obtain ⟨hnodup, hsmall⟩ := hdistinct (by decide +kernel)
  obtain ⟨hlength, hparts⟩ := hsmall (by decide +kernel)
  rw [hcounted hearlier, overwritten_eq_nil _ hearlier, List.append_nil] at hparts
  exact ⟨rows, st', hrun, hnodup, hlength, hparts⟩

/-- An unnamed desk and one whose name is empty, on both days. -/
def unnamedFebruary : QueryResult :=
  deskSizes (tenDesks ++ [(.null, 50), (.text "", 40), (.text "z", 30)])

def unnamedJanuary : QueryResult :=
  deskSizes [(.null, 4), (.text "", 2)]

theorem keptLabels_unnamed :
    keptLabels (twelveDesks.groups unnamedFebruary) =
      ["a", "b", "c", "d", "e", "f", "g", "h", "i", "j", ""] := by
  have hranked : (twelveDesks.groups unnamedFebruary).Pairwise fun x y =>
      (byValue x y).isLE = true := by
    decide +kernel
  rw [keptLabels, topGroups_length, ranked, List.mergeSort_of_pairwise hranked]
  decide +kernel

/-- The desk without a name and the one with an empty name are read as one label: both rows are kept,
so there are thirteen, and what the desk without a name had before is in none of them. -/
theorem breakdownAt_repeated :
    BreakdownPlan.prepare uncachedEngine.tables twelveDesks.spec "desk" [] = .ok twelveDesks ∧
      unnamedFebruary.CellsApart ["group_key"] ∧ unnamedJanuary.CellsApart ["group_key"] ∧
      ∃ rows st', (uncachedEngine.breakdownAt (dealsSurroundings unnamedFebruary unnamedJanuary)
        twelveDesks february january).run.run .initial = (.ok rows, st') ∧
      ¬ (rows.map (·.group)).Nodup ∧ rows.length = 13 ∧
      ∀ row ∈ rows, row.figures.previous ≠ .ofNat 4 := by
  obtain ⟨st', hfetch⟩ := fetchPair_deals unnamedFebruary unnamedJanuary
  -- The rows are put in order by a sort, so what is counted is counted before it.
  have hperm := rows_perm twelveDesks.spec (twelveDesks.groups unnamedFebruary)
    (twelveDesks.groups unnamedJanuary)
  rw [ownRows, othersRow, ownGroups, keptLabels_unnamed] at hperm
  refine ⟨rfl, ?_, ?_, _, st', breakdownAt_run hfetch, ?_, ?_, ?_⟩
  · exact QueryResult.cellsApart_of_nodup (by decide +kernel)
  · exact QueryResult.cellsApart_of_nodup (by decide +kernel)
  · rw [nodup_rows_iff, ownGroups, keptLabels_unnamed]
    decide +kernel
  · rw [hperm.length_eq]
    decide +kernel
  · simp only [hperm.mem_iff]
    decide +kernel

end Engine

end SnapshotAnalytics

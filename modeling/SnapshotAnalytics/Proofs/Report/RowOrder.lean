import SnapshotAnalytics.Proofs.Report.DistinctLabels

/-!
# Breakdowns and the order of what is fetched

A breakdown with a small limit does not depend on the order in which the groups of either snapshot come
in, as long as those of a snapshot have different labels: which groups are kept and in which order their
rows stand is decided by total orders, and the earlier group of a label is the only one. What can depend
on the order is what is summed up, by rounding: the shares and the figures of the row of the others.
-/

namespace SnapshotAnalytics

open Consolidation

variable {α : Type} [Amount α]

/-! ## §1 The order of rows -/

namespace BreakdownRow

/-- A row but for its share in the total. -/
def withoutShare (row : BreakdownRow α) : BreakdownRow α :=
  { row with percentageOfTotal := Amount.zero }

section

variable [Amount.Ranked α]

instance (rankBy : RankBy) :
    Std.TransCmp (rank rankBy : BreakdownRow α → BreakdownRow α → Ordering) :=
  have bySlot (i : Nat) :
      Std.TransCmp fun x y : BreakdownRow α => Amount.rank (x.slot i) (y.slot i) :=
    Sorting.transCmp_on Amount.rank fun row : BreakdownRow α => row.slot i
  match rankBy with
  | .value => Sorting.transCmp_on Amount.rank fun row : BreakdownRow α => row.figures.current
  | .result1 => bySlot 0
  | .result2 => bySlot 1
  | .result3 => bySlot 2
  | .group => inferInstanceAs (Std.TransCmp (compareOn BreakdownRow.group))

instance (rankBy : RankBy) (direction : OrderDirection) :
    Std.TransCmp (directed rankBy direction : BreakdownRow α → BreakdownRow α → Ordering) :=
  have downwards : Std.TransCmp fun x y : BreakdownRow α => (rank rankBy x y).swap := by
    simp only [← Std.OrientedCmp.eq_swap]
    exact Std.TransCmp.opposite
  match direction with
  | .ascending =>
    inferInstanceAs (Std.TransCmp (compareLex (rank rankBy) (compareOn BreakdownRow.group)))
  | .descending =>
    inferInstanceAs (Std.TransCmp
      (compareLex (fun x y => (rank rankBy x y).swap) (compareOn BreakdownRow.group)))

end

/-- Rows that are equal in the order have the same label. -/
theorem group_eq_of_directed_eq {rankBy : RankBy} {direction : OrderDirection}
    {x y : BreakdownRow α} (h : directed rankBy direction x y = .eq) : x.group = y.group := by
  have hgroup : compare x.group y.group = .eq := (Ordering.then_eq_eq.mp h).2
  exact Std.LawfulEqOrd.eq_of_compare hgroup

theorem sort_perm (rankBy : RankBy) (direction : OrderDirection) (rows : List (BreakdownRow α)) :
    (sort rankBy direction rows).Perm rows :=
  List.mergeSort_perm rows _

/-- No row is ranked by its share. -/
theorem map_withoutShare_sort (rankBy : RankBy) (direction : OrderDirection)
    (rows : List (BreakdownRow α)) :
    (sort rankBy direction rows).map withoutShare =
      sort rankBy direction (rows.map withoutShare) :=
  List.map_mergeSort fun _ _ _ _ => rfl

/-- Rows with different labels are sorted the same way whatever order they come in. -/
theorem sort_eq_of_perm [Amount.Ranked α] (rankBy : RankBy) (direction : OrderDirection)
    {rows rows' : List (BreakdownRow α)} (h : rows'.Perm rows) (hrows : (rows.map (·.group)).Nodup) :
    sort rankBy direction rows' = sort rankBy direction rows :=
  Sorting.mergeSort_eq_of_perm h
    (Sorting.pairwise_ne_eq (directed rankBy direction) (fun _ _ => group_eq_of_directed_eq) hrows)

end BreakdownRow

namespace Breakdown

/-! ## §2 Parts that do not depend on the order of groups -/

section

variable {current current' previous previous' : List (GroupValues α)}

omit [Amount α] in
theorem nodup_of_perm (h : current'.Perm current) (hcurrent : (current.map (·.group)).Nodup) :
    (current'.map (·.group)).Nodup :=
  (h.map _).nodup_iff.mpr hcurrent

omit [Amount α] in
/-- The group of a label is the same in every order. -/
theorem groupOf?_eq_of_perm (h : previous'.Perm previous)
    (hprevious : (previous.map (·.group)).Nodup) (label : String) :
    groupOf? previous' label = groupOf? previous label := by
  by_cases hlabel : ∃ p ∈ previous, p.group = label
  · -- The look-up takes the last group of a label, which is the only one.
    obtain ⟨p, hp, rfl⟩ := hlabel
    rw [groupOf?_eq_some hprevious hp,
      groupOf?_eq_some (nodup_of_perm h hprevious) (h.mem_iff.mpr hp)]
  · have hnone : ∀ p ∈ previous, p.group ≠ label := fun p hp hsame => hlabel ⟨p, hp, hsame⟩
    rw [groupOf?_eq_none hnone, groupOf?_eq_none fun p hp => hnone p (h.mem_iff.mp hp)]

theorem keptLabels_eq_of_perm [Amount.Ranked α] (h : current'.Perm current)
    (hcurrent : (current.map (·.group)).Nodup) : keptLabels current' = keptLabels current := by
  have hranked : ranked current' = ranked current :=
    Sorting.mergeSort_eq_of_perm h
      (Sorting.pairwise_ne_eq byValue (fun _ _ => group_eq_of_byValue_eq) hcurrent)
  rw [keptLabels, keptLabels, topGroups_length, topGroups_length, hranked]

variable (spec : BreakdownSpec)

omit [Amount α] in
theorem consolidates_iff_of_perm (h : current'.Perm current) :
    Consolidates spec current' ↔ Consolidates spec current := by
  rw [Consolidates, Consolidates, h.length_eq]

theorem ownGroups_perm [Amount.Ranked α] (h : current'.Perm current)
    (hcurrent : (current.map (·.group)).Nodup) :
    (ownGroups spec current').Perm (ownGroups spec current) := by
  rw [ownGroups, ownGroups, keptLabels_eq_of_perm h hcurrent]
  by_cases hboth : Consolidates spec current
  · rw [if_pos hboth, if_pos ((consolidates_iff_of_perm spec h).mpr hboth)]
    exact h.filter _
  · rw [if_neg hboth, if_neg fun h' => hboth ((consolidates_iff_of_perm spec h).mp h')]
    exact h

/-- The own rows are the same ones but for their shares. -/
theorem ownRows_perm [Amount.Ranked α] (h : current'.Perm current)
    (hcurrent : (current.map (·.group)).Nodup) (h' : previous'.Perm previous)
    (hprevious : (previous.map (·.group)).Nodup) :
    ((ownRows spec current' previous').map BreakdownRow.withoutShare).Perm
      ((ownRows spec current previous).map BreakdownRow.withoutShare) := by
  have hrows (groups : List (GroupValues α)) (total total' : α) :
      (rowsOf total' groups previous').map BreakdownRow.withoutShare =
        (rowsOf total groups previous).map BreakdownRow.withoutShare := by
    rw [rowsOf, rowsOf, List.map_map, List.map_map]
    apply List.map_congr_left
    intro g _
    rw [Function.comp_apply, groupOf?_eq_of_perm h' hprevious]
    -- The total is in the share alone.
    rfl
  rw [ownRows, ownRows, hrows _ (Amount.sum (current.map (·.value)))]
  exact ((ownGroups_perm spec h hcurrent).map _).map _

theorem isSome_othersRow [Amount.Ranked α] (hcurrent : (current.map (·.group)).Nodup)
    (previous : List (GroupValues α)) :
    (othersRow spec current previous).isSome = decide (Consolidates spec current) := by
  by_cases hboth : Consolidates spec current
  · obtain ⟨row, hrow⟩ := exists_othersRow hboth hcurrent previous
    rw [hrow, decide_eq_true hboth]
    rfl
  · rw [othersRow, if_neg hboth, decide_eq_false hboth]
    rfl

end

/-! ## §3 All rows -/

/-- Rows are divided into rows of their own and behind them the row of the others, if there is one. -/
structure Divides (rows own : List (BreakdownRow α)) (others : Option (BreakdownRow α)) : Prop where
  eq : rows = own ++ others.toList
  own : ∀ row ∈ own, row.isOthers = false
  others : ∀ row ∈ others, row.isOthers = true

theorem divides_rows {spec : BreakdownSpec} (hlimit : spec.limit ≤ 12)
    (current previous : List (GroupValues α)) :
    Divides (rows spec current previous)
      (BreakdownRow.sort spec.rankBy spec.direction (ownRows spec current previous))
      (othersRow spec current previous) := by
  refine ⟨rows_of_small hlimit current previous, ?_, ?_⟩
  · -- Sorting moves rows about and marks none of them.
    intro row hrow
    obtain ⟨g, _, rfl⟩ := List.mem_map.mp ((BreakdownRow.sort_perm _ _ _).mem_iff.mp hrow)
    rfl
  · intro row hrow
    rw [Option.mem_def, othersRow] at hrow
    split at hrow
    · obtain ⟨g, _, rfl⟩ := Option.map_eq_some_iff.mp hrow
      rfl
    · cases hrow

/-- Two lists of rows with the same own rows in the same order, but for their shares, and either both
or neither with a row of the others. -/
def SameOwnRows (rows rows' : List (BreakdownRow α)) : Prop :=
  ∃ own own' others others', Divides rows own others ∧ Divides rows' own' others' ∧
    own'.map BreakdownRow.withoutShare = own.map BreakdownRow.withoutShare ∧
      others'.isSome = others.isSome

theorem rows_sameOwnRows [Amount.Ranked α] {spec : BreakdownSpec} (hlimit : spec.limit ≤ 12)
    {current current' previous previous' : List (GroupValues α)} (h : current'.Perm current)
    (hcurrent : (current.map (·.group)).Nodup) (h' : previous'.Perm previous)
    (hprevious : (previous.map (·.group)).Nodup) :
    SameOwnRows (rows spec current previous) (rows spec current' previous') := by
  refine ⟨_, _, _, _, divides_rows hlimit current previous, divides_rows hlimit current' previous',
    ?_, ?_⟩
  · -- Shares are left out before the rows are sorted, since they alone depend on the order.
    rw [BreakdownRow.map_withoutShare_sort, BreakdownRow.map_withoutShare_sort]
    apply BreakdownRow.sort_eq_of_perm _ _ (ownRows_perm spec h hcurrent h' hprevious)
    have hlabels : ((ownRows spec current previous).map BreakdownRow.withoutShare).map (·.group) =
        (ownGroups spec current).map (·.group) := by
      rw [← map_group_ownRows spec current previous, List.map_map]
      rfl
    rw [hlabels]
    exact hcurrent.sublist (ownGroups_sublist.map _)
  · rw [isSome_othersRow spec (nodup_of_perm h hcurrent), isSome_othersRow spec hcurrent,
      decide_eq_decide]
    exact consolidates_iff_of_perm spec h

end Breakdown

/-! ## §4 Breakdowns of what is fetched -/

namespace Engine

/-- **A breakdown does not depend on the order of what is fetched**: two runs of an accepted breakdown
with a small limit whose answers differ in the order of their groups give the same own rows in the same
order, but for the shares, and either both or neither have a row of the others behind them. -/
theorem breakdownAt_rowOrder (e : Engine) (s s' : Surroundings Id) {spec : BreakdownSpec}
    {groupBy : String} {filters : List Filter} {plan : BreakdownPlan}
    (hplan : BreakdownPlan.prepare e.tables spec groupBy filters = .ok plan)
    (hlimit : spec.limit ≤ 12) (current comparison : Date)
    {st st' left left' : CacheState} {r₁ r₂ r₁' r₂' : QueryResult}
    (hfetch : (e.fetchPair s .figures .comparedFigures (e.breakdownFetch plan current)
      (e.breakdownFetch plan comparison)).run.run st = (.ok (r₁, r₂), left))
    (hfetch' : (e.fetchPair s' .figures .comparedFigures (e.breakdownFetch plan current)
      (e.breakdownFetch plan comparison)).run.run st' = (.ok (r₁', r₂'), left'))
    (hcurrent : ((plan.groups r₁).map (·.group)).Nodup)
    (hcomparison : ((plan.groups r₂).map (·.group)).Nodup)
    (hperm : (plan.groups r₁').Perm (plan.groups r₁))
    (hperm' : (plan.groups r₂').Perm (plan.groups r₂)) :
    ∃ rows rows', (e.breakdownAt s plan current comparison).run.run st = (.ok rows, left) ∧
      (e.breakdownAt s' plan current comparison).run.run st' = (.ok rows', left') ∧
      Breakdown.SameOwnRows rows rows' := by
  obtain ⟨_, rfl, _⟩ := BreakdownPlan.prepared hplan
  exact ⟨_, _, breakdownAt_run hfetch, breakdownAt_run hfetch',
    Breakdown.rows_sameOwnRows hlimit hperm hcurrent hperm' hcomparison⟩

theorem breakdownAt_rowOrder_deals :
    let last := [(Json.text "Others", 30), (.text "x", 30), (.null, 50)]
    let earlier := [(Json.text "x", 4), (.text "b", 8), (.text "w", 1)]
    ∃ rows rows' st st',
      (uncachedEngine.breakdownAt (dealsSurroundings (deskSizes (tenDesks ++ last))
        (deskSizes earlier)) twelveDesks february january).run.run .initial = (.ok rows, st) ∧
      (uncachedEngine.breakdownAt (dealsSurroundings (deskSizes (last ++ tenDesks))
        (deskSizes earlier.reverse)) twelveDesks february january).run.run .initial =
          (.ok rows', st') ∧
      Breakdown.SameOwnRows rows rows' := by
  intro last earlier
  have hplan : BreakdownPlan.prepare uncachedEngine.tables twelveDesks.spec "desk" [] =
      .ok twelveDesks := rfl
  -- Records in another order are read as the same groups in another order.
  have hgroups {sizes sizes' : List (Json × Nat)} (h : sizes'.Perm sizes) :
      (twelveDesks.groups (deskSizes sizes')).Perm (twelveDesks.groups (deskSizes sizes)) :=
    ((h.map _).map _).map _
  obtain ⟨st, hfetch⟩ := fetchPair_deals (deskSizes (tenDesks ++ last)) (deskSizes earlier)
  obtain ⟨st', hfetch'⟩ :=
    fetchPair_deals (deskSizes (last ++ tenDesks)) (deskSizes earlier.reverse)
  obtain ⟨rows, rows', hrun, hrun', hsame⟩ := breakdownAt_rowOrder uncachedEngine _ _ hplan
    (by decide) february january hfetch hfetch' (by decide +kernel) (by decide +kernel)
    (hgroups List.perm_append_comm) (hgroups (List.reverse_perm earlier))
  exact ⟨rows, rows', st, st', hrun, hrun', hsame⟩

end Engine

end SnapshotAnalytics

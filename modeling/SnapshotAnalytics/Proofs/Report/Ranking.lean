import SnapshotAnalytics.Report.Breakdown
import SnapshotAnalytics.Proofs.Data.Sorting
import Mathlib.Data.List.Nodup

/-!
# Ranked groups

Groups are ranked by value, the largest first, and by label among equals. This is a total order, and
groups with distinct labels are strictly ordered by it. The labels that a consolidated breakdown keeps
are the first ones in this order, a group with the label of the merged one passed over.
-/

namespace SnapshotAnalytics

/-- Groups with distinct labels are strictly ordered by sorting, as long as only groups with the same
label are equal in the order. -/
theorem GroupValues.pairwise_lt_mergeSort {α : Type}
    {cmp : GroupValues α → GroupValues α → Ordering} [Std.TransCmp cmp]
    (hcmp : ∀ x y, cmp x y = .eq → x.group = y.group) {rows : List (GroupValues α)}
    (hrows : (rows.map (·.group)).Nodup) :
    (rows.mergeSort fun x y => (cmp x y).isLE).Pairwise fun x y => cmp x y = .lt :=
  Sorting.pairwise_lt_mergeSort (Sorting.pairwise_ne_eq cmp hcmp hrows)

/-- Amounts that are ranked by a total order. -/
abbrev Amount.Ranked (α : Type) [Amount α] : Prop :=
  Std.TransCmp (Amount.rank : α → α → Ordering)

/-- Doubles are ranked by a total order. -/
instance : Amount.Ranked Binary64 :=
  inferInstanceAs (Std.TransCmp (compareOn Binary64.place))

namespace Consolidation

variable {α : Type} [Amount α]

/-! ## §1 The order of groups -/

instance [Amount.Ranked α] : Std.TransCmp (byValue : GroupValues α → GroupValues α → Ordering) :=
  have upwards : Std.TransCmp fun x y : GroupValues α => Amount.rank x.value y.value :=
    Sorting.transCmp_on Amount.rank GroupValues.value
  have : Std.TransCmp fun x y : GroupValues α => Amount.rank y.value x.value := upwards.opposite
  inferInstanceAs (Std.TransCmp
    (compareLex (fun x y : GroupValues α => Amount.rank y.value x.value)
      (compareOn GroupValues.group)))

/-- Groups that are equal in the order have the same label. -/
theorem group_eq_of_byValue_eq {x y : GroupValues α} (h : byValue x y = .eq) :
    x.group = y.group := by
  have hgroup : compare x.group y.group = .eq := (Ordering.then_eq_eq.mp h).2
  exact Std.LawfulEqOrd.eq_of_compare hgroup

/-- Groups in their order. -/
def ranked (rows : List (GroupValues α)) : List (GroupValues α) :=
  rows.mergeSort fun x y => (byValue x y).isLE

theorem ranked_perm (rows : List (GroupValues α)) : (ranked rows).Perm rows :=
  List.mergeSort_perm rows _

theorem nodup_ranked {rows : List (GroupValues α)} (hrows : (rows.map (·.group)).Nodup) :
    ((ranked rows).map (·.group)).Nodup :=
  ((ranked_perm rows).map _).nodup_iff.mpr hrows

/-- Groups with distinct labels are strictly ordered. -/
theorem pairwise_ranked [Amount.Ranked α] {rows : List (GroupValues α)}
    (hrows : (rows.map (·.group)).Nodup) :
    (ranked rows).Pairwise fun x y => byValue x y = .lt :=
  GroupValues.pairwise_lt_mergeSort (fun _ _ => group_eq_of_byValue_eq) hrows

/-- All labels in the order of their groups. -/
theorem topGroups_length (rows : List (GroupValues α)) :
    topGroups rows.length rows = (ranked rows).map (·.group) := by
  rw [topGroups, ranked, List.take_of_length_le (Nat.le_of_eq (List.length_mergeSort _))]

/-! ## §2 The labels that are kept -/

/-- The labels of the first groups: so many different labels of groups, none of them the label of the
merged group, such that each of their groups comes before every other group that could be kept. -/
structure IsTop (count : Nat) (groups : List (GroupValues α)) (keep : List String) : Prop where
  length : keep.length = count
  nodup : keep.Nodup
  labels : ∀ label ∈ keep, ∃ g ∈ groups, g.group = label
  notOthers : othersLabel ∉ keep
  first : ∀ x ∈ groups, x.group ∈ keep → ∀ y ∈ groups, y.group ∉ keep → y.group ≠ othersLabel →
    byValue x y = .lt

/-- The groups that could be kept, in their order. -/
def candidates (groups : List (GroupValues α)) : List (GroupValues α) :=
  (ranked groups).filter (·.group != othersLabel)

theorem keptLabels_eq (groups : List (GroupValues α)) :
    Breakdown.keptLabels groups = ((candidates groups).take topCount).map (·.group) := by
  rw [Breakdown.keptLabels, topGroups_length, List.filter_map, ← List.map_take]
  rfl

theorem mem_candidates {groups : List (GroupValues α)} {g : GroupValues α} :
    g ∈ candidates groups ↔ g ∈ groups ∧ g.group ≠ othersLabel := by
  rw [candidates, List.mem_filter, (ranked_perm groups).mem_iff, bne_iff_ne]

/-- At most one group has the label of the merged one, so all but one could be kept. -/
theorem length_candidates {groups : List (GroupValues α)} (h : (groups.map (·.group)).Nodup) :
    groups.length ≤ (candidates groups).length + 1 := by
  -- The filter takes away the groups with the reserved label, of which there is at most one.
  have hothers : ((ranked groups).filter fun g => !(g.group != othersLabel)).length ≤ 1 := by
    have hcount := List.nodup_iff_count_le_one.mp (nodup_ranked h) othersLabel
    rw [List.count_eq_countP, List.countP_map, List.countP_eq_length_filter] at hcount
    have hnot : (fun g : GroupValues α => !(g.group != othersLabel)) =
        (· == othersLabel) ∘ (·.group) := by
      funext g
      exact Bool.not_not _
    rw [hnot]
    exact hcount
  have hsplit := List.length_eq_length_filter_add (l := ranked groups) (·.group != othersLabel)
  rw [(ranked_perm groups).length_eq] at hsplit
  unfold candidates
  omega

/-- **The kept labels are the first ones**, when there are more groups than are kept. -/
theorem isTop_keptLabels [Amount.Ranked α] {groups : List (GroupValues α)}
    (hmany : topCount < groups.length) (hgroups : (groups.map (·.group)).Nodup) :
    IsTop topCount groups (Breakdown.keptLabels groups) := by
  have hlength := length_candidates hgroups
  have hordered : (candidates groups).Pairwise fun x y => byValue x y = .lt :=
    (pairwise_ranked hgroups).filter _
  have hnodup : ((candidates groups).map (·.group)).Nodup :=
    (nodup_ranked hgroups).sublist (List.filter_sublist.map _)
  have hlabel {x y : GroupValues α} (hx : x ∈ groups) (hy : y ∈ groups)
      (h : x.group = y.group) : x = y :=
    List.inj_on_of_nodup_map hgroups hx hy h
  rw [keptLabels_eq]
  refine ⟨?_, ?_, ?_, ?_, ?_⟩
  · rw [List.length_map, List.length_take]
    omega
  · exact hnodup.sublist ((List.take_sublist _ _).map _)
  · intro label hlabel
    obtain ⟨g, hg, rfl⟩ := List.mem_map.mp hlabel
    exact ⟨g, (mem_candidates.mp (List.mem_of_mem_take hg)).1, rfl⟩
  · intro hothers
    obtain ⟨g, hg, hgroup⟩ := List.mem_map.mp hothers
    exact (mem_candidates.mp (List.mem_of_mem_take hg)).2 hgroup
  · intro x hx hxkeep y hy hykeep hyothers
    -- The candidates are those that are taken, then the others; `x` is among the first and `y` among
    -- the second, since labels are distinct.
    obtain ⟨x', hx', hxx'⟩ := List.mem_map.mp hxkeep
    have hxtaken : x ∈ (candidates groups).take topCount := by
      rw [hlabel hx (mem_candidates.mp (List.mem_of_mem_take hx')).1 hxx'.symm]
      exact hx'
    have hydropped : y ∈ (candidates groups).drop topCount := by
      have hy' : y ∈ candidates groups := mem_candidates.mpr ⟨hy, hyothers⟩
      rw [← List.take_append_drop topCount (candidates groups), List.mem_append] at hy'
      rcases hy' with htaken | hdropped
      · exact absurd (List.mem_map_of_mem htaken) hykeep
      · exact hdropped
    rw [← List.take_append_drop topCount (candidates groups), List.pairwise_append] at hordered
    exact hordered.2.2 x hxtaken y hydropped

end Consolidation

end SnapshotAnalytics

import SnapshotAnalytics.Proofs.Report.Merging
import SnapshotAnalytics.Proofs.Report.Plans
import SnapshotAnalytics.Proofs.Report.RowParts

/-!
# Result slots

Every group that is fetched has one slot for each result measure, and merging keeps it so. So nothing
is filled up when groups are merged, every row has all slots, each of them beside the slot in the same
place of what stood there before, and an order by a slot finds it in every row.
-/

namespace SnapshotAnalytics

open Checks

/-- A checked order is by the main value, by label, or by a slot for which there is a measure. -/
theorem BreakdownSpec.rankBy_of_check {spec : BreakdownSpec} {t : TableSchema}
    (h : spec.check t = .ok ()) :
    spec.rankBy = .value ∨ spec.rankBy = .group ∨
      ∃ i < spec.results.length, spec.rankBy.slot? = some i := by
  simp only [check, bind_eq_ok, refuse_eq_ok] at h
  -- Two checks of measures stand between the number of slots and the order.
  obtain ⟨-, -, -, -, -, hslot, -⟩ := h
  have hexists (i : Nat) (hi : spec.rankBy.slot? = some i) : i < spec.results.length := by
    simpa [hi] using hslot
  cases hrank : spec.rankBy with
  | value => exact Or.inl rfl
  | group => exact Or.inr (Or.inl rfl)
  | result1 | result2 | result3 =>
    rw [hrank] at hexists
    exact Or.inr (Or.inr ⟨_, hexists _ rfl, rfl⟩)

/-- What fits the rule of a breakdown has a slot for each result measure. -/
theorem BreakdownSpec.fits_iff {α : Type} {spec : BreakdownSpec} {g : GroupValues α} :
    spec.mergeRule.Fits g ↔ g.results.length = spec.results.length := by
  rw [MergeRule.Fits, mergeRule, List.length_map]

/-- Fetched groups fit the rule. -/
theorem BreakdownPlan.fits_groups {plan : BreakdownPlan} {r : QueryResult} :
    ∀ g ∈ plan.groups r, plan.spec.mergeRule.Fits g := by
  intro g hg
  obtain ⟨record, -, rfl⟩ := List.mem_map.mp hg
  exact BreakdownSpec.fits_iff.mpr List.length_mapIdx

namespace Breakdown

variable {α : Type} [Amount α] {spec : BreakdownSpec} {current previous : List (GroupValues α)}

/-- What a row stands beside: the earlier group of its label, or the merged earlier groups. -/
def earlier? (spec : BreakdownSpec) (current previous : List (GroupValues α)) (row : BreakdownRow α) :
    Option (GroupValues α) :=
  if row.isOthers then
    Consolidation.others spec.mergeRule (keptLabels current) previous
  else
    groupOf? previous row.group

/-- The slots of a row are those of a current group, or of the merged ones, each beside the slot in its
place of what the row stands beside. -/
theorem results_of_mem_rows {row : BreakdownRow α} (h : row ∈ rows spec current previous) :
    ∃ g, (g ∈ current ∨
        Consolidation.others spec.mergeRule (keptLabels current) current = some g) ∧
      row.results = g.results.mapIdx fun i x =>
        ⟨x, (((earlier? spec current previous row).map (·.results)).getD []).getD i Amount.zero⟩ := by
  rcases of_mem_rows h with ⟨g, hg, rfl⟩ | ⟨g, hg, rfl⟩
  · exact ⟨g, Or.inl hg, rfl⟩
  · exact ⟨g, Or.inr hg, rfl⟩

/-- Merging keeps the slots of groups. -/
theorem fits_others {rule : MergeRule} {keep : List String} {groups : List (GroupValues α)}
    {others : GroupValues α} (h : Consolidation.others rule keep groups = some others) :
    rule.Fits others :=
  (MergeRule.merges_of_merge h).fits

theorem fits_earlier? (hprevious : ∀ g ∈ previous, spec.mergeRule.Fits g) {row : BreakdownRow α}
    {p : GroupValues α} (hp : p ∈ earlier? spec current previous row) : spec.mergeRule.Fits p := by
  unfold earlier? at hp
  split at hp
  · exact fits_others hp
  · exact hprevious p (List.mem_reverse.mp (List.mem_of_find?_eq_some hp))

end Breakdown

/-- A slot of a row is there, and so is the slot in its place of what the row stands beside: neither is
made up. -/
def BreakdownRow.ReadsSlot {α : Type} [Amount α] (row : BreakdownRow α)
    (earlier? : Option (GroupValues α)) (i : Nat) : Prop :=
  ∃ result, row.results[i]? = some result ∧ row.slot i = result.current ∧
    ∀ p ∈ earlier?, p.results[i]? = some result.previous

namespace Breakdown

variable {α : Type} [Amount α] {spec : BreakdownSpec} {current previous : List (GroupValues α)}

/-- **Rows have all slots** when the groups that they are made of have them. -/
theorem readsSlot_of_mem_rows (hcurrent : ∀ g ∈ current, spec.mergeRule.Fits g)
    (hprevious : ∀ g ∈ previous, spec.mergeRule.Fits g) {row : BreakdownRow α}
    (h : row ∈ rows spec current previous) :
    row.results.length = spec.results.length ∧
      ∀ i < spec.results.length, row.ReadsSlot (earlier? spec current previous row) i := by
  -- The slots are counted by those of the group in front; what stands before has as many.
  obtain ⟨g, hg, hresults⟩ := results_of_mem_rows h
  have hlength : g.results.length = spec.results.length :=
    BreakdownSpec.fits_iff.mp (hg.elim (hcurrent g) fits_others)
  refine ⟨?_, fun i hi => ?_⟩
  · rw [hresults, List.length_mapIdx, hlength]
  · have hslot : row.results[i]? = some ⟨g.slot i,
        (((earlier? spec current previous row).map (·.results)).getD []).getD i Amount.zero⟩ := by
      rw [hresults, List.getElem?_mapIdx, g.getElem?_results (hlength ▸ hi), Option.map_some]
    refine ⟨_, hslot, ?_, fun p hp => ?_⟩
    · rw [BreakdownRow.slot, hslot]
      rfl
    · have hbefore : p.results.length = spec.results.length :=
        BreakdownSpec.fits_iff.mp (fits_earlier? hprevious hp)
      rw [p.getElem?_results (hbefore ▸ hi), hp]
      rfl

end Breakdown

namespace BreakdownPlan

/-- Whatever two answers hold, no slot is missing: not of a group, where merging would fill it up, not
of merged groups, and not of a row, where it would count as zero in an order. -/
structure HasAllSlots (plan : BreakdownPlan) (now before : QueryResult) : Prop where
  groups : ∀ g ∈ plan.groups now ++ plan.groups before,
    g.results.length = plan.spec.results.length ∧ plan.spec.mergeRule.slots g.results = g.results
  others : ∀ keep, ∀ groups ∈ [plan.groups now, plan.groups before],
    ∀ others ∈ Consolidation.others plan.spec.mergeRule keep groups,
      others.results.length = plan.spec.results.length
  rows : ∀ row ∈ Breakdown.rows plan.spec (plan.groups now) (plan.groups before),
    row.results.length = plan.spec.results.length ∧ ∀ i < plan.spec.results.length,
      row.ReadsSlot (Breakdown.earlier? plan.spec (plan.groups now) (plan.groups before) row) i
  order : plan.spec.rankBy = .value ∨ plan.spec.rankBy = .group ∨
    ∃ i, plan.spec.rankBy.slot? = some i ∧
      ∀ row ∈ Breakdown.rows plan.spec (plan.groups now) (plan.groups before),
        ∃ result, row.results[i]? = some result ∧ row.slot i = result.current

theorem Prepared.hasAllSlots {tables : TableRegistry} {plan : BreakdownPlan}
    (h : plan.Prepared tables) (now before : QueryResult) : plan.HasAllSlots now before := by
  have hfits : ∀ g ∈ plan.groups now ++ plan.groups before, plan.spec.mergeRule.Fits g :=
    List.forall_mem_append.mpr ⟨fits_groups, fits_groups⟩
  have hrow {row : BreakdownRow Binary64}
      (hmem : row ∈ Breakdown.rows plan.spec (plan.groups now) (plan.groups before)) :=
    Breakdown.readsSlot_of_mem_rows fits_groups fits_groups hmem
  refine ⟨fun g hg => ⟨BreakdownSpec.fits_iff.mp (hfits g hg), MergeRule.slots_of_fits (hfits g hg)⟩,
    fun keep groups _ others hothers => BreakdownSpec.fits_iff.mp (Breakdown.fits_others hothers),
    fun row hmem => hrow hmem, ?_⟩
  -- The rows may be ranked by a result, and then every row has that result.
  rcases BreakdownSpec.rankBy_of_check h.checked with hvalue | hgroup | ⟨i, hi, hslot⟩
  · exact Or.inl hvalue
  · exact Or.inr (Or.inl hgroup)
  · refine Or.inr (Or.inr ⟨i, hslot, fun row hmem => ?_⟩)
    obtain ⟨result, hresult, hcurrent, -⟩ := (hrow hmem).2 i hi
    exact ⟨result, hresult, hcurrent⟩

end BreakdownPlan

end SnapshotAnalytics

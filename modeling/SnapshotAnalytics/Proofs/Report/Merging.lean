import SnapshotAnalytics.Report.Breakdown

/-!
# Merged groups

Merging goes column by column: the main value of the merged group is the combination of the main
values from the first to the last, and each result slot is the combination of the slots in its place.
-/

namespace SnapshotAnalytics

variable {α : Type} [Amount α]

/-- The combination of figures from the first to the last, zero if there are none. -/
def Aggregation.combineAll (a : Aggregation) : List α → α
  | [] => Amount.zero
  | x :: xs => xs.foldl a.combine x

/-- The figure in a result slot of a group, zero if the group has no such slot. -/
def GroupValues.slot (g : GroupValues α) (i : Nat) : α :=
  g.results.getD i Amount.zero

theorem GroupValues.getElem?_results (g : GroupValues α) {i : Nat} (hi : i < g.results.length) :
    g.results[i]? = some (g.slot i) := by
  rw [slot, List.getD_eq_getElem?_getD, List.getElem?_eq_getElem hi]
  rfl

namespace MergeRule

/-- A merged group has one slot for each aggregation. -/
def Fits (rule : MergeRule) (g : GroupValues α) : Prop :=
  g.results.length = rule.results.length

variable {rule : MergeRule}

theorem length_slots (results : List α) : (rule.slots results).length = rule.results.length :=
  List.length_mapIdx

/-- A group that fits a rule keeps its slots, and none is added. -/
theorem slots_of_fits {g : GroupValues α} (h : rule.Fits g) : rule.slots g.results = g.results := by
  apply List.ext_getElem
  · rw [length_slots, h]
  · intro i hi hi'
    simp [slots, hi']

/-- Merging a group in combines the figures of each slot. -/
theorem slot_step {merged row : GroupValues α} (h : rule.Fits merged) {i : Nat} {a : Aggregation}
    (hi : rule.results[i]? = some a) :
    (rule.step merged row).slot i = a.combine (merged.slot i) (row.slot i) := by
  obtain ⟨hlt, _⟩ := List.getElem?_eq_some_iff.mp hi
  have hlength : merged.results.length = rule.results.length := h
  have hmerged : merged.results[i]? = some (merged.slot i) :=
    merged.getElem?_results (by rw [hlength]; exact hlt)
  have hrow : (rule.slots row.results)[i]? = some (row.slot i) := by
    rw [slots, List.getElem?_mapIdx, hi]
    rfl
  -- A step takes the aggregations and the slots of both groups place by place.
  have hzip : (rule.results.zip (merged.results.zip (rule.slots row.results)))[i]? =
      some (a, merged.slot i, row.slot i) :=
    List.getElem?_zip_eq_some.mpr ⟨hi, List.getElem?_zip_eq_some.mpr ⟨hmerged, hrow⟩⟩
  rw [GroupValues.slot, step, List.getD_eq_getElem?_getD, List.getElem?_map, hzip]
  rfl

theorem fits_step {merged : GroupValues α} (h : rule.Fits merged) (row : GroupValues α) :
    rule.Fits (rule.step merged row) := by
  simp only [Fits, step, List.length_map, List.length_zip, length_slots]
  rw [show merged.results.length = rule.results.length from h]
  omega

/-- Merging further groups in: the label stays, and each column is combined on its own. -/
theorem foldl_step (rows : List (GroupValues α)) {merged : GroupValues α} (h : rule.Fits merged) :
    (rows.foldl rule.step merged).group = merged.group ∧
      (rows.foldl rule.step merged).value =
        (rows.map (·.value)).foldl rule.value.combine merged.value ∧
      rule.Fits (rows.foldl rule.step merged) ∧
      ∀ i a, rule.results[i]? = some a → (rows.foldl rule.step merged).slot i =
        (rows.map (·.slot i)).foldl a.combine (merged.slot i) := by
  -- That the merged group fits the rule carries the induction: no slot is lost on the way.
  induction rows generalizing merged with
  | nil => exact ⟨rfl, rfl, h, fun _ _ _ => rfl⟩
  | cons row rows ih =>
    obtain ⟨hgroup, hvalue, hfits, hslots⟩ := ih (fits_step h row)
    refine ⟨hgroup, hvalue, hfits, ?_⟩
    intro i a hi
    rw [List.foldl_cons, hslots i a hi, slot_step h hi]
    rfl

/-- What merging gives: the label, and in each column the combination of all figures. -/
structure Merges (rule : MergeRule) (label : String) (rows : List (GroupValues α))
    (merged : GroupValues α) : Prop where
  group : merged.group = label
  value : merged.value = rule.value.combineAll (rows.map (·.value))
  fits : rule.Fits merged
  slot : ∀ i a, rule.results[i]? = some a →
    merged.slot i = a.combineAll (rows.map (·.slot i))

/-- **Groups are merged column by column**, and there is a merged group if there is any group. -/
theorem merge_cons (label : String) (row : GroupValues α) (rows : List (GroupValues α)) :
    ∃ merged, rule.merge label (row :: rows) = some merged ∧
      rule.Merges label (row :: rows) merged := by
  have hfirst : rule.Fits (⟨label, row.value, rule.slots row.results⟩ : GroupValues α) :=
    length_slots row.results
  obtain ⟨hgroup, hvalue, hfits, hslots⟩ := foldl_step rows hfirst
  refine ⟨_, rfl, hgroup, hvalue, hfits, ?_⟩
  intro i a hi
  have hslot : (⟨label, row.value, rule.slots row.results⟩ : GroupValues α).slot i = row.slot i := by
    rw [GroupValues.slot, slots, List.getD_eq_getElem?_getD, List.getElem?_mapIdx, hi]
    rfl
  rw [hslots i a hi, hslot]
  rfl

/-- Whatever is merged is merged column by column. -/
theorem merges_of_merge {label : String} {rows : List (GroupValues α)} {merged : GroupValues α}
    (h : rule.merge label rows = some merged) : rule.Merges label rows merged := by
  cases rows with
  | nil => cases h
  | cons row rows =>
    obtain ⟨merged', hmerge, hmerged⟩ := rule.merge_cons label row rows
    obtain rfl : merged = merged' := Option.some.inj (h.symm.trans hmerge)
    exact hmerged

/-- What is merged has the label under which it is merged. -/
theorem group_of_merge {label : String} {rows : List (GroupValues α)} {merged : GroupValues α}
    (h : rule.merge label rows = some merged) : merged.group = label :=
  (merges_of_merge h).group

/-- The main value of what is merged, zero if there is no group. -/
theorem value_merge (rule : MergeRule) (label : String) (rows : List (GroupValues α)) :
    ((rule.merge label rows).map (·.value)).getD Amount.zero =
      rule.value.combineAll (rows.map (·.value)) := by
  cases rows with
  | nil => rfl
  | cons row rows =>
    obtain ⟨merged, hmerge, hmerged⟩ := rule.merge_cons label row rows
    rw [hmerge]
    exact hmerged.value

end MergeRule

end SnapshotAnalytics

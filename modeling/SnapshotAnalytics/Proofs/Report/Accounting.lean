import SnapshotAnalytics.Proofs.Data.Keyed
import SnapshotAnalytics.Proofs.Number.Exact
import SnapshotAnalytics.Proofs.Report.TopAndOthers
import Mathlib.Algebra.BigOperators.Group.List.Lemmas

/-!
# Accounting for groups

A report of groups shows some labels by themselves and all other groups under one merged label. So
every group goes under one label. The merged groups are added up, but of several groups with one label
that is shown by itself only the last one counts: it overwrites the others. What the figures of a
report leave out is therefore what was overwritten, and nothing is overwritten when labels are
different.
-/

namespace SnapshotAnalytics

/-! ## §1 Sums -/

/-- All aggregations but the smallest and the greatest value are added up. -/
theorem Aggregation.combineAll_exact {a : Aggregation} (hmin : a ≠ .min) (hmax : a ≠ .max)
    (xs : List ℚ) : a.combineAll xs = xs.sum := by
  cases xs with
  | nil => rfl
  | cons x xs =>
    have hadd : (a.combine : ℚ → ℚ → ℚ) = Amount.add := by
      cases a <;> first | rfl | contradiction
    rw [combineAll, hadd, Amount.foldl_add_exact, List.sum_cons]

/-- A group with the exact values of its figures. -/
def GroupValues.exact (g : GroupValues Binary64) : GroupValues ℚ :=
  ⟨g.group, g.value.toRat, g.results.map Binary64.toRat⟩

/-- Dated groups with the exact values of their figures. -/
def exactReadings (readings : List (Date × GroupValues Binary64)) : List (Date × GroupValues ℚ) :=
  readings.map fun x => (x.1, x.2.exact)

namespace Consolidation

variable {α : Type}

/-! ## §2 Where a group goes -/

/-- The label under which a group is shown: its own, if that is shown by itself, or the merged one. -/
def shownAs (own : List String) (g : GroupValues α) : String :=
  if g.group ∈ own then g.group else othersLabel

theorem shownAs_cases (own : List String) (g : GroupValues α) :
    shownAs own g ∈ own ∨ shownAs own g = othersLabel := by
  by_cases hg : g.group ∈ own
  · rw [shownAs, if_pos hg]
    exact Or.inl hg
  · rw [shownAs, if_neg hg]
    exact Or.inr rfl

/-- The merged label stands for no group by itself, unless no group is merged. -/
def Separates (own : List String) (groups : List (GroupValues α)) : Prop :=
  othersLabel ∈ own → ∀ g ∈ groups, g.group ∈ own

/-- A group whose label is shown by itself is overwritten by a later group with that label. -/
def IsOverwritten (own : List String) (g : GroupValues α) (later : List (GroupValues α)) : Prop :=
  g.group ∈ own ∧ ∃ h ∈ later, h.group = g.group

instance (own : List String) (g : GroupValues α) (later : List (GroupValues α)) :
    Decidable (IsOverwritten own g later) :=
  inferInstanceAs (Decidable (_ ∧ _))

/-- The groups that are not overwritten. -/
def counted (own : List String) : List (GroupValues α) → List (GroupValues α)
  | [] => []
  | g :: later => if IsOverwritten own g later then counted own later else g :: counted own later

/-- The groups that are overwritten. -/
def overwritten (own : List String) : List (GroupValues α) → List (GroupValues α)
  | [] => []
  | g :: later =>
    if IsOverwritten own g later then g :: overwritten own later else overwritten own later

variable {own : List String} {groups : List (GroupValues α)} {label : String}

theorem perm_counted_overwritten (own : List String) (groups : List (GroupValues α)) :
    (counted own groups ++ overwritten own groups).Perm groups := by
  -- Each group is put into one of the two lists, as it is met.
  induction groups with
  | nil => exact .nil
  | cons g later ih =>
    by_cases hg : IsOverwritten own g later
    · rw [counted, overwritten, if_pos hg, if_pos hg]
      exact List.perm_middle.trans (ih.cons g)
    · rw [counted, overwritten, if_neg hg, if_neg hg]
      exact ih.cons g

/-- Groups with different labels are not overwritten. -/
theorem counted_eq_self (own : List String) (h : (groups.map (·.group)).Nodup) :
    counted own groups = groups := by
  induction groups with
  | nil => rfl
  | cons g later ih =>
    rw [List.map_cons, List.nodup_cons] at h
    -- No later group has the label of the first one.
    have hg : ¬ IsOverwritten own g later := fun ⟨_, x, hx, hlabel⟩ =>
      h.1 (List.mem_map.mpr ⟨x, hx, hlabel⟩)
    rw [counted, if_neg hg, ih h.2]

theorem overwritten_eq_nil (own : List String) (h : (groups.map (·.group)).Nodup) :
    overwritten own groups = [] := by
  have hperm := perm_counted_overwritten own groups
  rw [counted_eq_self own h] at hperm
  have hlength := hperm.length_eq
  rw [List.length_append] at hlength
  exact List.eq_nil_of_length_eq_zero (by omega)

/-! ## §3 What is shown under a label -/

theorem shownAs_eq_iff {g : GroupValues α} (hown : othersLabel ∈ own → g.group ∈ own)
    (hlabel : label ∈ own) : shownAs own g = label ↔ g.group = label := by
  unfold shownAs
  split
  · rfl
  · rename_i hg
    constructor
    · rintro rfl
      exact absurd (hown hlabel) hg
    · rintro rfl
      exact absurd hlabel hg

theorem shownAs_eq_othersLabel_iff {g : GroupValues α} (hothers : othersLabel ∉ own) :
    shownAs own g = othersLabel ↔ g.group ∉ own := by
  unfold shownAs
  split
  · rename_i hg
    constructor
    · intro hsame
      exact absurd (hsame ▸ hg) hothers
    · intro hg'
      exact absurd hg hg'
  · rename_i hg
    exact ⟨fun _ => hg, fun _ => rfl⟩

theorem groupOf?_cons (g : GroupValues α) (later : List (GroupValues α)) (label : String) :
    Breakdown.groupOf? (g :: later) label =
      (Breakdown.groupOf? later label).or (if g.group = label then some g else none) := by
  rw [Breakdown.groupOf?, List.reverse_cons, List.find?_append, List.find?_singleton]
  simp only [beq_iff_eq]
  rfl

/-- Under a label that is shown by itself the last group with that label counts, if there is any. -/
theorem filter_counted_own (hown : Separates own groups) (hlabel : label ∈ own) :
    (counted own groups).filter (fun g => shownAs own g = label) =
      (Breakdown.groupOf? groups label).toList := by
  -- The look-up starts from the last group, so the first one is found only if no later one is.
  induction groups with
  | nil => rfl
  | cons g later ih =>
    have ih := ih fun h x hx => hown h x (List.mem_cons_of_mem _ hx)
    have hg : shownAs own g = label ↔ g.group = label :=
      shownAs_eq_iff (fun h => hown h g (List.mem_cons_self ..)) hlabel
    rw [groupOf?_cons]
    by_cases hsame : g.group = label
    · by_cases hlater : ∃ x ∈ later, x.group = label
      · -- A later group with the label is found first.
        have hover : IsOverwritten own g later := ⟨hsame ▸ hlabel, hsame ▸ hlater⟩
        obtain ⟨x, hx, hxlabel⟩ := hlater
        have hfound : (Breakdown.groupOf? later label).isSome := by
          rw [Breakdown.groupOf?, List.find?_isSome]
          exact ⟨x, List.mem_reverse.mpr hx, by simpa using hxlabel⟩
        rw [counted, if_pos hover, ih, Option.or_of_isSome hfound]
      · have hkeep : ¬ IsOverwritten own g later := fun h => hlater (hsame ▸ h.2)
        have hnone : Breakdown.groupOf? later label = none :=
          Breakdown.groupOf?_eq_none fun x hx hxlabel => hlater ⟨x, hx, hxlabel⟩
        rw [counted, if_neg hkeep, List.filter_cons_of_pos (by simpa using hg.mpr hsame), ih, hnone,
          if_pos hsame]
        rfl
    · rw [if_neg hsame, Option.or_none, ← ih, counted]
      split
      · rfl
      · exact List.filter_cons_of_neg (by simpa using fun h => hsame (hg.mp h))

/-- Under the merged label all groups count that are not shown by themselves. -/
theorem filter_counted_others (hothers : othersLabel ∉ own) :
    (counted own groups).filter (fun g => shownAs own g = othersLabel) = rest own groups := by
  -- Only groups with labels of their own are overwritten, and these are not merged.
  induction groups with
  | nil => rfl
  | cons g later ih =>
    by_cases hg : g.group ∈ own
    · have hshown : ¬ shownAs own g = othersLabel :=
        fun h => (shownAs_eq_othersLabel_iff hothers).mp h hg
      rw [rest, List.filter_cons_of_neg (by simpa using hg), counted]
      split
      · exact ih
      · rw [List.filter_cons_of_neg (by simpa using hshown)]
        exact ih
    · have hkeep : ¬ IsOverwritten own g later := fun h => hg h.1
      have hshown : shownAs own g = othersLabel := (shownAs_eq_othersLabel_iff hothers).mpr hg
      rw [rest, List.filter_cons_of_pos (by simpa using hg), counted, if_neg hkeep,
        List.filter_cons_of_pos (by simpa using hshown), ih]
      rfl

section

variable [Amount α]

/-- The figure under a label that is shown by itself, combined of what counts there. -/
theorem figure_own (a : Aggregation) (hown : Separates own groups) (hlabel : label ∈ own) :
    ((Breakdown.groupOf? groups label).map (·.value)).getD Amount.zero =
      a.combineAll (((counted own groups).filter fun g => shownAs own g = label).map (·.value)) := by
  rw [filter_counted_own hown hlabel]
  cases Breakdown.groupOf? groups label with
  | none => rfl
  | some g => rfl

/-- The figure under the merged label, combined of what counts there. -/
theorem figure_others (rule : MergeRule) (hothers : othersLabel ∉ own)
    (groups : List (GroupValues α)) :
    ((others rule own groups).map (·.value)).getD Amount.zero =
      rule.value.combineAll
        (((counted own groups).filter fun g => shownAs own g = othersLabel).map (·.value)) := by
  rw [filter_counted_others hothers]
  exact rule.value_merge othersLabel (rest own groups)

end

/-! ## §4 Conservation -/

/-- **What figures leave out was overwritten**: if every group goes under one of the labels, then every
group counts under exactly one of them or is overwritten. -/
theorem perm_shown_overwritten {labels : List String} (hlabels : labels.Nodup)
    (hmem : ∀ g ∈ groups, shownAs own g ∈ labels) :
    ((labels.flatMap fun label => (counted own groups).filter fun g => shownAs own g = label) ++
      overwritten own groups).Perm groups := by
  have hperm := perm_counted_overwritten own groups
  refine (List.Perm.append_right _ (Keyed.perm_flatMap_filter (shownAs own) hlabels ?_)).trans hperm
  intro g hg
  exact hmem g (hperm.mem_iff.mp (List.mem_append_left _ hg))

/-- The figures of all labels and the overwritten groups add up to all groups. -/
theorem sum_shown_add_overwritten {groups : List (GroupValues ℚ)} {labels : List String}
    (hlabels : labels.Nodup) (hmem : ∀ g ∈ groups, shownAs own g ∈ labels) :
    (groups.map (·.value)).sum =
      (labels.map fun label => (((counted own groups).filter fun g => shownAs own g = label).map
        (·.value)).sum).sum + ((overwritten own groups).map (·.value)).sum := by
  rw [← ((perm_shown_overwritten hlabels hmem).map _).sum_eq, List.map_append, List.sum_append,
    List.map_flatMap, List.flatMap_def, List.sum_flatten, List.map_map]
  rfl

end Consolidation

/-! ## §5 Distinct records -/

/-- No two records of an answer have the same cells in all of the given columns. -/
def QueryResult.CellsApart (columns : List String) (r : QueryResult) : Prop :=
  r.records.Pairwise fun x y => ∃ column ∈ columns, Keyed.find? column x ≠ Keyed.find? column y

/-- Every group of an answer is labelled with a text. -/
def QueryResult.TextLabels (r : QueryResult) : Prop :=
  ∀ record ∈ r.records, ∃ label, Keyed.find? "group_key" record = some (.text label)

/-- Every date of a column is written in the way of an encoding. -/
def QueryResult.DatesWritten (encoding : DateEncoding) (column : String) (r : QueryResult) : Prop :=
  ∀ record ∈ r.records, ∀ d, (Keyed.find? column record).bind Cell.date? = some d →
    Keyed.find? column record = some (.text (encoding.encode d))

/-- Cells that are null or texts are apart if they are different. -/
theorem QueryResult.cellsApart_of_nodup {r : QueryResult} {column : String}
    (h : (r.records.map fun record => match Keyed.find? column record with
      | some (.text s) => some s
      | _ => none).Nodup) : r.CellsApart [column] := by
  refine (List.pairwise_map.mp h).imp fun {x y} hne => ⟨column, List.mem_singleton.mpr rfl, ?_⟩
  intro hsame
  rw [hsame] at hne
  exact hne rfl

/-- Cells that are texts are read as different labels if they are different. -/
theorem BreakdownPlan.labelOf_ne {x y : Record} {column label label' : String}
    (hx : Keyed.find? column x = some (.text label))
    (hy : Keyed.find? column y = some (.text label'))
    (hne : Keyed.find? column x ≠ Keyed.find? column y) :
    labelOf x column ≠ labelOf y column := by
  simp only [labelOf, hx, hy, Option.map_some, Option.getD_some, Cell.label]
  rintro rfl
  exact hne (hx.trans hy.symm)

end SnapshotAnalytics

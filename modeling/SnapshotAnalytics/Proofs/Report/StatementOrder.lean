import SnapshotAnalytics.Proofs.Report.Merging
import SnapshotAnalytics.Proofs.Report.Plans
import SnapshotAnalytics.Proofs.Report.Ranking

/-!
# What the statement of a breakdown lists

A warehouse that holds groups for each snapshot answers the statement of a breakdown with the groups
of the snapshot that it binds, in the order that it asks for and cut at its limit. How labels are
ordered is up to the warehouse: a field can hold texts, numbers or dates. The order is decided by the
label in the end, so a group is listed exactly when fewer groups come before it than the limit allows.
-/

namespace SnapshotAnalytics

/-! ## §1 The order of a statement -/

namespace Ordered

variable (labels : String → String → Ordering)

/-- The figure of a group in a column. -/
def figure (column : String) (g : GroupValues Binary64) : Binary64 :=
  match column with
  | "value" => g.value
  | "result1" => g.slot 0
  | "result2" => g.slot 1
  | "result3" => g.slot 2
  | _ => Amount.zero

/-- The order of groups by a column upwards: labels in their own order, figures as numbers. -/
def upwards (column : String) (x y : GroupValues Binary64) : Ordering :=
  if column = "group_key" then labels x.group y.group
  else compare (figure column x).signedMagnitude (figure column y).signedMagnitude

/-- The order of groups by a column in its direction. -/
def compareGroups (o : Ordered) (x y : GroupValues Binary64) : Ordering :=
  if o.direction? = some .descending then upwards labels o.column y x else upwards labels o.column x y

/-- The order of groups by several columns, one after the other. -/
def lexicographic : List Ordered → GroupValues Binary64 → GroupValues Binary64 → Ordering
  | [] => fun _ _ => .eq
  | o :: order => compareLex (o.compareGroups labels) (lexicographic order)

variable {labels}

instance [Std.TransCmp labels] (column : String) : Std.TransCmp (upwards labels column) := by
  by_cases hlabel : column = "group_key"
  · have horder : upwards labels column = fun x y => labels x.group y.group := by
      funext x y
      rw [upwards, if_pos hlabel]
    rw [horder]
    exact Sorting.transCmp_on labels GroupValues.group
  · have horder : upwards labels column = compareOn fun g => (figure column g).signedMagnitude := by
      funext x y
      rw [upwards, if_neg hlabel, compareOn]
    rw [horder]
    infer_instance

instance [Std.TransCmp labels] (o : Ordered) : Std.TransCmp (o.compareGroups labels) := by
  by_cases hdown : o.direction? = some .descending
  · have horder : o.compareGroups labels = fun x y => upwards labels o.column y x := by
      funext x y
      rw [compareGroups, if_pos hdown]
    rw [horder]
    exact Std.TransCmp.opposite
  · have horder : o.compareGroups labels = upwards labels o.column := by
      funext x y
      rw [compareGroups, if_neg hdown]
    rw [horder]
    infer_instance

instance transCmp_lexicographic [Std.TransCmp labels] (order : List Ordered) :
    Std.TransCmp (lexicographic labels order) := by
  induction order with
  | nil => exact { eq_swap := rfl, isLE_trans := fun _ _ => rfl }
  | cons o order ih =>
    unfold lexicographic
    infer_instance

variable [Std.LawfulEqCmp labels]

/-- Groups that are equal by their labels have the same label, in either direction. -/
theorem group_eq_of_compareGroups_eq {o : Ordered} (ho : o.column = "group_key")
    {x y : GroupValues Binary64} (h : o.compareGroups labels x y = .eq) : x.group = y.group := by
  have hup {x y : GroupValues Binary64} (h : upwards labels o.column x y = .eq) :
      x.group = y.group := by
    rw [upwards, if_pos ho] at h
    exact Std.LawfulEqCmp.eq_of_compare h
  unfold compareGroups at h
  split at h
  · exact (hup h).symm
  · exact hup h

/-- Groups that are equal in an order that looks at labels have the same label. -/
theorem group_eq_of_lexicographic_eq {order : List Ordered}
    (horder : ∃ o ∈ order, o.column = "group_key") {x y : GroupValues Binary64}
    (h : lexicographic labels order x y = .eq) : x.group = y.group := by
  induction order with
  | nil =>
    obtain ⟨o, ho, _⟩ := horder
    cases ho
  | cons o order ih =>
    obtain ⟨hfirst, hrest⟩ := Ordering.then_eq_eq.mp h
    obtain ⟨o', ho', hcolumn⟩ := horder
    rcases List.mem_cons.mp ho' with rfl | hmem
    · exact group_eq_of_compareGroups_eq hcolumn hfirst
    · exact ih ⟨o', hmem, hcolumn⟩ hrest

end Ordered

/-! ## §2 Listed groups -/

namespace Select

section Listing

variable (labels : String → String → Ordering)

/-- The groups that a selection lists: all groups in its order, cut at its limit. -/
def listing (s : Select) (groups : List (GroupValues Binary64)) : List (GroupValues Binary64) :=
  let sorted := groups.mergeSort fun x y => (Ordered.lexicographic labels s.order x y).isLE
  match s.limit with
  | some n => sorted.take n
  | none => sorted

/-- How many groups come before a group in the order of a selection. -/
def placeOf (s : Select) (groups : List (GroupValues Binary64)) (g : GroupValues Binary64) : Nat :=
  groups.countP fun x => (Ordered.lexicographic labels s.order x g).isLT

end Listing

variable {labels : String → String → Ordering} {s : Select} {groups : List (GroupValues Binary64)}
  {n : Nat}

theorem listing_eq (hlimit : s.limit = some n) : s.listing labels groups =
    (groups.mergeSort fun x y => (Ordered.lexicographic labels s.order x y).isLE).take n := by
  simp only [listing, hlimit]

theorem mem_of_mem_listing {g : GroupValues Binary64} (hg : g ∈ s.listing labels groups) :
    g ∈ groups := by
  unfold listing at hg
  split at hg
  · exact List.mem_mergeSort.mp (List.mem_of_mem_take hg)
  · exact List.mem_mergeSort.mp hg

theorem nodup_listing (hgroups : (groups.map (·.group)).Nodup) :
    ((s.listing labels groups).map (·.group)).Nodup := by
  have hsorted := ((List.mergeSort_perm groups
    fun x y => (Ordered.lexicographic labels s.order x y).isLE).map (·.group)).nodup_iff.mpr hgroups
  unfold listing
  split
  · exact hsorted.sublist ((List.take_sublist _ _).map _)
  · exact hsorted

/-- When the limit is not reached, all groups are listed. -/
theorem listing_perm (hlimit : s.limit = some n) (hfew : groups.length ≤ n) :
    (s.listing labels groups).Perm groups := by
  rw [listing_eq hlimit, List.take_of_length_le (by rwa [List.length_mergeSort])]
  exact List.mergeSort_perm groups _

/-- In a list in strict order, as many items come before an item as its place says. -/
theorem countP_isLT_getElem {α : Type} {cmp : α → α → Ordering} [Std.TransCmp cmp] {items : List α}
    (hitems : items.Pairwise fun x y => cmp x y = .lt) (i : Nat) (hi : i < items.length) :
    items.countP (fun x => (cmp x items[i]).isLT) = i := by
  induction items generalizing i with
  | nil => cases hi
  | cons x items ih =>
    obtain ⟨hfirst, hitems⟩ := List.pairwise_cons.mp hitems
    cases i with
    | zero =>
      -- Nothing comes before the first item, not even the item itself.
      rw [List.countP_eq_zero]
      intro y hy
      rcases List.mem_cons.mp hy with rfl | hmem
      · simp [Std.ReflCmp.compare_self]
      · simp [Std.OrientedCmp.gt_iff_lt.mpr (hfirst y hmem)]
    | succ i =>
      have hi' : i < items.length := Nat.lt_of_succ_lt_succ hi
      have hlt : cmp x items[i] = .lt := hfirst _ (List.getElem_mem hi')
      simp only [List.getElem_cons_succ]
      rw [List.countP_cons_of_pos (by simp [hlt]), ih hitems i hi']

/-- **A group is listed when few enough groups come before it.** -/
theorem mem_listing_iff [Std.TransCmp labels] [Std.LawfulEqCmp labels]
    (hlimit : s.limit = some n) (hlabels : ∃ o ∈ s.order, o.column = "group_key")
    (hgroups : (groups.map (·.group)).Nodup) {g : GroupValues Binary64} (hg : g ∈ groups) :
    g ∈ s.listing labels groups ↔ s.placeOf labels groups g < n := by
  let sorted := groups.mergeSort fun x y => (Ordered.lexicographic labels s.order x y).isLE
  have hperm : sorted.Perm groups := List.mergeSort_perm groups _
  have hstrict : sorted.Pairwise fun x y => Ordered.lexicographic labels s.order x y = .lt :=
    GroupValues.pairwise_lt_mergeSort
      (fun _ _ => Ordered.group_eq_of_lexicographic_eq hlabels) hgroups
  -- The place of a group among all groups is its place in the sorted list.
  have hplace (i : Nat) (hi : i < sorted.length) : s.placeOf labels groups sorted[i] = i := by
    rw [placeOf, ← hperm.countP_eq]
    exact countP_isLT_getElem hstrict i hi
  have hlisting : s.listing labels groups = sorted.take n := listing_eq hlimit
  rw [hlisting, List.mem_take_iff_getElem]
  constructor
  · rintro ⟨i, hi, rfl⟩
    obtain ⟨hn, hlength⟩ := Nat.lt_min.mp hi
    rwa [hplace i hlength]
  · intro hlt
    obtain ⟨i, hi, rfl⟩ := List.getElem_of_mem (hperm.mem_iff.mpr hg)
    rw [hplace i hi] at hlt
    exact ⟨i, Nat.lt_min.mpr ⟨hlt, hi⟩, rfl⟩

end Select

end SnapshotAnalytics

import Mathlib.Data.List.Perm.Basic

/-!
# Sorted lists

A comparison that is transitive is total, so a list can be sorted by it. When no two elements of the
list are equal in the order, each comes strictly before all those behind it.
-/

namespace SnapshotAnalytics.Sorting

variable {α : Type} {cmp : α → α → Ordering}

/-- An order of values orders whatever has them. -/
theorem transCmp_on {β : Type} (cmp : α → α → Ordering) [Std.TransCmp cmp] (f : β → α) :
    Std.TransCmp fun x y => cmp (f x) (f y) where
  eq_swap := Std.OrientedCmp.eq_swap
  isLE_trans := Std.TransCmp.isLE_trans

variable (cmp) in
/-- Elements with different keys are not equal in an order that tells keys apart. -/
theorem pairwise_ne_eq {κ : Type} {key : α → κ} (hcmp : ∀ x y, cmp x y = .eq → key x = key y)
    {xs : List α} (hxs : (xs.map key).Nodup) : xs.Pairwise fun x y => cmp x y ≠ .eq :=
  (List.pairwise_map.mp hxs).imp fun {x y} hne heq => hne (hcmp x y heq)

theorem isLE_total [Std.OrientedCmp cmp] (x y : α) : ((cmp x y).isLE || (cmp y x).isLE) = true := by
  rw [Bool.or_eq_true]
  cases hxy : cmp x y with
  | lt => exact Or.inl rfl
  | eq => exact Or.inl rfl
  | gt => exact Or.inr (by rw [Std.OrientedCmp.gt_iff_lt.mp hxy]; rfl)

theorem pairwise_isLE_mergeSort [Std.TransCmp cmp] (xs : List α) :
    (xs.mergeSort fun x y => (cmp x y).isLE).Pairwise fun x y => (cmp x y).isLE = true :=
  List.pairwise_mergeSort (fun _ _ _ => Std.TransCmp.isLE_trans) isLE_total xs

/-- Elements no two of which are equal in the order are strictly ordered by sorting. -/
theorem pairwise_lt_mergeSort [Std.TransCmp cmp] {xs : List α}
    (hxs : xs.Pairwise fun x y => cmp x y ≠ .eq) :
    (xs.mergeSort fun x y => (cmp x y).isLE).Pairwise fun x y => cmp x y = .lt := by
  have hapart : (xs.mergeSort fun x y => (cmp x y).isLE).Pairwise fun x y => cmp x y ≠ .eq :=
    ((List.mergeSort_perm xs _).pairwise_iff fun h heq => h (Std.OrientedCmp.eq_symm heq)).mpr hxs
  -- Two elements in order either come strictly after each other or are equal in it.
  refine ((pairwise_isLE_mergeSort xs).and hapart).imp fun {x y} h => ?_
  cases hxy : cmp x y with
  | lt => rfl
  | eq => exact absurd hxy h.2
  | gt =>
    rw [hxy] at h
    cases h.1

/-- Elements no two of which are equal in the order are sorted the same way whatever order they come
in. -/
theorem mergeSort_eq_of_perm [Std.TransCmp cmp] {xs ys : List α} (h : ys.Perm xs)
    (hxs : xs.Pairwise fun x y => cmp x y ≠ .eq) :
    (ys.mergeSort fun x y => (cmp x y).isLE) = xs.mergeSort fun x y => (cmp x y).isLE := by
  have hys : ys.Pairwise fun x y => cmp x y ≠ .eq :=
    (h.pairwise_iff fun hne heq => hne (Std.OrientedCmp.eq_symm heq)).mpr hxs
  refine List.Perm.eq_of_pairwise (fun x y _ _ hlt hgt => ?_) (pairwise_lt_mergeSort hys)
    (pairwise_lt_mergeSort hxs) ?_
  · rw [Std.OrientedCmp.gt_of_lt hlt] at hgt
    cases hgt
  · exact (List.mergeSort_perm ys _).trans (h.trans (List.mergeSort_perm xs _).symm)

end SnapshotAnalytics.Sorting

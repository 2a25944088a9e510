import Mathlib.Data.List.Forall2

/-!
# Reading lists

A list is read by reading each of its items, which may fail. It is read when every item is, and each
result then stands at the place of its item.
-/

namespace SnapshotAnalytics.Readings

variable {α β : Type} {read : α → Option β} {items : List α}

theorem mapM_eq_some_iff {results : List β} :
    items.mapM read = some results ↔
      List.Forall₂ (fun item result => read item = some result) items results := by
  induction items generalizing results with
  | nil =>
    rw [List.forall₂_nil_left_iff, List.mapM_nil]
    exact Option.some_inj.trans eq_comm
  | cons item items ih =>
    simp only [List.mapM_cons, Option.bind_eq_bind, Option.bind_eq_some_iff,
      List.forall₂_cons_left_iff, ih]
    constructor
    · rintro ⟨result, hresult, rest, hrest, h⟩
      cases h
      exact ⟨result, rest, hresult, hrest, rfl⟩
    · rintro ⟨result, rest, hresult, hrest, rfl⟩
      exact ⟨result, hresult, rest, hrest, rfl⟩

/-- One item that is not read is enough for the list not to be read. -/
theorem mapM_eq_none_iff : items.mapM read = none ↔ ∃ item ∈ items, read item = none := by
  induction items with
  | nil => simp
  | cons item items ih =>
    rw [List.mapM_cons, List.exists_mem_cons_iff, ← ih]
    cases read item with
    | none => simp
    | some result => cases items.mapM read <;> simp

/-- Items that are all read, each to its own result. -/
theorem mapM_eq_some_map {result : α → β} (h : ∀ item ∈ items, read item = some (result item)) :
    items.mapM read = some (items.map result) := by
  rw [mapM_eq_some_iff, List.forall₂_map_right_iff, List.forall₂_same]
  exact h

/-- Each result was read from an item. -/
theorem exists_item_of_mapM {results : List β} (h : items.mapM read = some results) {result : β}
    (hresult : result ∈ results) : ∃ item ∈ items, read item = some result := by
  induction mapM_eq_some_iff.mp h with
  | nil => cases hresult
  | @cons item _ items _ hitem hitems ih =>
    rcases List.mem_cons.mp hresult with rfl | hmem
    · exact ⟨item, List.mem_cons_self, hitem⟩
    · obtain ⟨item', hmem', hread⟩ := ih (mapM_eq_some_iff.mpr hitems) hmem
      exact ⟨item', List.mem_cons_of_mem _ hmem', hread⟩

/-- Each item was read. -/
theorem exists_result_of_mapM {results : List β} (h : items.mapM read = some results) {item : α}
    (hitem : item ∈ items) : ∃ result, read item = some result := by
  refine Option.ne_none_iff_exists'.mp fun hnone => ?_
  rw [mapM_eq_none_iff.mpr ⟨item, hitem, hnone⟩] at h
  cases h

end SnapshotAnalytics.Readings

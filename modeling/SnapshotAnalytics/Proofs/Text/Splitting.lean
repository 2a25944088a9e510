import SnapshotAnalytics.Text.Search

/-!
# Cutting texts at a separator

Cutting undoes joining: pieces that are free of the separator come back out of the joined text, and
the joined pieces are the text. So two lists of such pieces with the same joined text are the same
list. Texts that are not free of the separator fall into the pieces of all of them, and these pieces
are all that the joined text shows of them.
-/

namespace SnapshotAnalytics.Text

theorem splitOn_eq (separator : Char) (s : List Char) :
    splitOn separator s = s.splitOn separator := by
  induction s with
  | nil => rfl
  | cons c s ih =>
    rw [splitOn, ih, List.splitOn_cons_eq_if_modifyHead]
    by_cases hc : c = separator
    · rw [if_pos hc, if_pos (beq_iff_eq.mpr hc)]
    · rw [if_neg hc, if_neg (fun h => hc (beq_iff_eq.mp h))]
      obtain ⟨piece, pieces, hs⟩ := List.exists_cons_of_ne_nil (List.splitOn_ne_nil separator s)
      rw [hs]
      rfl

/-- The pieces of a text, joined again, are the text. -/
theorem intercalate_splitOn (separator : Char) (s : List Char) :
    [separator].intercalate (splitOn separator s) = s := by
  rw [splitOn_eq, List.intercalate_splitOn]

/-- Pieces free of the separator are the pieces of what they make up. -/
theorem splitOn_intercalate {separator : Char} {pieces : List (List Char)}
    (hfree : ∀ piece ∈ pieces, separator ∉ piece) (hne : pieces ≠ []) :
    splitOn separator ([separator].intercalate pieces) = pieces := by
  rw [splitOn_eq, List.splitOn_intercalate separator hfree hne]

/-- Pieces free of the separator are determined by what they make up. -/
theorem eq_of_intercalate_eq {separator : Char} {pieces pieces' : List (List Char)}
    (hfree : ∀ piece ∈ pieces, separator ∉ piece) (hne : pieces ≠ [])
    (hfree' : ∀ piece ∈ pieces', separator ∉ piece) (hne' : pieces' ≠ [])
    (h : [separator].intercalate pieces = [separator].intercalate pieces') : pieces = pieces' := by
  rw [← splitOn_intercalate hfree hne, h, splitOn_intercalate hfree' hne']

/-- Whatever the pieces are: one among others that stay the same is determined by what all of them
make up. -/
theorem eq_of_intercalate_middle_eq {separator : List Char} {front back : List (List Char)}
    {s s' : List Char}
    (h : separator.intercalate (front ++ s :: back) = separator.intercalate (front ++ s' :: back)) :
    s = s' := by
  induction front with
  | nil =>
    cases back with
    | nil => simpa using h
    | cons next back =>
      rw [List.nil_append, List.nil_append, List.intercalate_cons_cons,
        List.intercalate_cons_cons] at h
      exact List.append_cancel_right (List.append_cancel_right h)
  | cons piece front ih =>
    have hne (middle : List Char) : front ++ middle :: back ≠ [] := by simp
    rw [List.cons_append, List.cons_append, List.intercalate_cons_of_ne_nil (hne s),
      List.intercalate_cons_of_ne_nil (hne s')] at h
    exact ih (List.append_cancel_left h)

theorem splitOn_ne_nil (separator : Char) (s : List Char) : splitOn separator s ≠ [] := by
  rw [splitOn_eq]
  exact List.splitOn_ne_nil separator s

theorem splitOn_of_not_mem {separator : Char} {s : List Char} (h : separator ∉ s) :
    splitOn separator s = [s] := by
  have hs := splitOn_intercalate (List.forall_mem_singleton.mpr h) (List.cons_ne_nil s [])
  rwa [List.intercalate_singleton] at hs

/-- A character other than the separator is in one of the pieces. -/
theorem exists_mem_splitOn {separator c : Char} (hc : c ≠ separator) {s : List Char} (h : c ∈ s) :
    ∃ piece ∈ splitOn separator s, c ∈ piece := by
  induction s with
  | nil => cases h
  | cons c' s ih =>
    rw [splitOn]
    split
    case isTrue hsep =>
      obtain ⟨piece, hpiece, hmem⟩ := ih (List.mem_of_ne_of_mem (hsep ▸ hc) h)
      exact ⟨piece, List.mem_cons_of_mem _ hpiece, hmem⟩
    case isFalse =>
      -- The character stands in the first piece, before what it began with, or further behind.
      obtain ⟨first, pieces, hs⟩ := List.exists_cons_of_ne_nil (splitOn_ne_nil separator s)
      rw [hs] at ih ⊢
      rcases List.mem_cons.mp h with rfl | h
      · exact ⟨c :: first, List.mem_cons_self, List.mem_cons_self⟩
      · obtain ⟨piece, hpiece, hmem⟩ := ih h
        rcases List.mem_cons.mp hpiece with rfl | hpiece
        · exact ⟨c' :: piece, List.mem_cons_self, List.mem_cons_of_mem _ hmem⟩
        · exact ⟨piece, List.mem_cons_of_mem _ hpiece, hmem⟩

/-- Joined texts are cut into the pieces of each of them. -/
theorem splitOn_intercalate_eq_flatMap (separator : Char) {texts : List (List Char)}
    (hne : texts ≠ []) :
    splitOn separator ([separator].intercalate texts) = texts.flatMap (splitOn separator) := by
  induction texts with
  | nil => exact absurd rfl hne
  | cons s texts ih =>
    cases texts with
    | nil => simp
    | cons next texts =>
      have hrest := ih (List.cons_ne_nil next texts)
      rw [splitOn_eq] at hrest
      rw [List.intercalate_cons_cons, List.append_assoc, List.singleton_append, splitOn_eq,
        List.splitOn_append_cons_self, hrest, ← splitOn_eq, ← List.flatMap_cons]

/-- Texts make up the same joined text exactly when they fall into the same pieces. -/
theorem intercalate_eq_iff {separator : Char} {texts texts' : List (List Char)} (hne : texts ≠ [])
    (hne' : texts' ≠ []) :
    [separator].intercalate texts = [separator].intercalate texts' ↔
      texts.flatMap (splitOn separator) = texts'.flatMap (splitOn separator) := by
  rw [← splitOn_intercalate_eq_flatMap separator hne,
    ← splitOn_intercalate_eq_flatMap separator hne']
  constructor
  · exact congrArg (splitOn separator)
  · intro h
    -- The pieces make up the joined text again.
    rw [← intercalate_splitOn separator ([separator].intercalate texts), h, intercalate_splitOn]

theorem flatMap_splitOn_of_not_mem {separator : Char} {texts : List (List Char)}
    (hfree : ∀ s ∈ texts, separator ∉ s) : texts.flatMap (splitOn separator) = texts := by
  induction texts with
  | nil => rfl
  | cons s texts ih =>
    obtain ⟨hs, htexts⟩ := List.forall_mem_cons.mp hfree
    rw [List.flatMap_cons, splitOn_of_not_mem hs, ih htexts, List.singleton_append]

/-- There are at least as many pieces as texts. -/
theorem length_le_flatMap_splitOn (separator : Char) (texts : List (List Char)) :
    texts.length ≤ (texts.flatMap (splitOn separator)).length := by
  induction texts with
  | nil => exact Nat.le_refl 0
  | cons s texts ih =>
    have hs := List.length_pos_iff.mpr (splitOn_ne_nil separator s)
    rw [List.flatMap_cons, List.length_append, List.length_cons]
    omega

/-- Texts that fall into no more pieces than there are texts are not cut at all. -/
theorem flatMap_splitOn_of_length_eq {separator : Char} {texts : List (List Char)}
    (h : (texts.flatMap (splitOn separator)).length = texts.length) :
    texts.flatMap (splitOn separator) = texts := by
  induction texts with
  | nil => rfl
  | cons s texts ih =>
    have hpos := List.length_pos_iff.mpr (splitOn_ne_nil separator s)
    have hle := length_le_flatMap_splitOn separator texts
    rw [List.flatMap_cons, List.length_append, List.length_cons] at h
    -- No text falls into fewer than one piece, so each of them is in one.
    obtain ⟨piece, hpiece⟩ := List.length_eq_one_iff.mp
      (show (splitOn separator s).length = 1 by omega)
    have hs : piece = s := by
      rw [← intercalate_splitOn separator s, hpiece, List.intercalate_singleton]
    rw [List.flatMap_cons, ih (by omega), hpiece, hs, List.singleton_append]

theorem not_mem_of_cutAt?_eq_none {separator : Char} {s : List Char}
    (h : cutAt? separator s = none) : separator ∉ s := by
  induction s with
  | nil => exact List.not_mem_nil
  | cons c s ih =>
    rw [cutAt?] at h
    split at h
    case isTrue => cases h
    case isFalse hc =>
      exact List.not_mem_cons_of_ne_of_not_mem (Ne.symm hc) (ih (Option.map_eq_none_iff.mp h))

/-- A text is cut everywhere by cutting it once, and then what stands behind the first separator. -/
theorem splitOn_of_cutAt?_eq_some {separator : Char} {s front rest : List Char}
    (h : cutAt? separator s = some (front, rest)) :
    splitOn separator s = front :: splitOn separator rest := by
  induction s generalizing front with
  | nil => cases h
  | cons c s ih =>
    rw [cutAt?] at h
    split at h
    case isTrue hc =>
      cases h
      rw [splitOn, if_pos hc]
    case isFalse hc =>
      obtain ⟨⟨front', rest'⟩, hcut, hfront⟩ := Option.map_eq_some_iff.mp h
      cases hfront
      rw [splitOn, if_neg hc, ih hcut]

end SnapshotAnalytics.Text

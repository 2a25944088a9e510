import Mathlib.Data.List.DropRight
import SnapshotAnalytics.Text.Blank

/-!
# Dropped ends

What is left of a text when the characters of one kind at its end, or the blanks at both ends, are
dropped.
-/

namespace SnapshotAnalytics.Text

variable {p : Char → Bool}

theorem dropEndWhile_eq (p : Char → Bool) (s : List Char) : dropEndWhile p s = s.rdropWhile p :=
  rfl

/-- What stands before a kept character is kept. -/
theorem dropEndWhile_append {t : List Char} (ht : ∃ c ∈ t, p c = false) (s : List Char) :
    dropEndWhile p (s ++ t) = s ++ dropEndWhile p t := by
  obtain ⟨c, hc, hp⟩ := ht
  have hkept : (t.reverse.dropWhile p).isEmpty = false := by
    rw [List.isEmpty_eq_false_iff, Ne, List.dropWhile_eq_nil_iff]
    intro hall
    exact Bool.false_ne_true (hp.symm.trans (hall c (List.mem_reverse.mpr hc)))
  rw [dropEndWhile, List.reverse_append, List.dropWhile_append, hkept]
  simp [dropEndWhile]

theorem dropEndWhile_cons {c : Char} (hc : p c = false) (s : List Char) :
    dropEndWhile p (c :: s) = c :: dropEndWhile p s := by
  have hkept : dropEndWhile p [c] = [c] := by simp [dropEndWhile, hc]
  cases hs : s.all p with
  | true =>
    have hall : ∀ c ∈ s, p c = true := List.all_eq_true.mp hs
    rw [dropEndWhile, List.reverse_cons, List.dropWhile_append_of_pos (by simpa using hall),
      dropEndWhile_eq p s, List.rdropWhile_eq_nil_iff.mpr hall]
    exact hkept
  | false =>
    obtain ⟨c', hc', hp⟩ := List.all_eq_false.mp hs
    exact dropEndWhile_append ⟨c', hc', by simpa using hp⟩ [c]

/-- A character is among the kept ones exactly when it stands somewhere with a character of the other
kind behind it. -/
theorem mem_dropEndWhile_iff {c : Char} (hc : p c = true) {s : List Char} :
    c ∈ dropEndWhile p s ↔ ∃ before after, s = before ++ c :: after ∧ ∃ c' ∈ after, p c' = false := by
  rw [dropEndWhile_eq]
  constructor
  · intro hmem
    obtain ⟨before, after, hkept⟩ := List.append_of_mem hmem
    refine ⟨before, after ++ s.rtakeWhile p, ?_, ?_⟩
    · rw [← List.cons_append, ← List.append_assoc, ← hkept, List.rdropWhile_append_rtakeWhile]
    · have hne : s.rdropWhile p ≠ [] := List.ne_nil_of_mem hmem
      -- The last kept character is of the other kind, so the text goes on behind this one.
      have hlast := List.rdropWhile_last_not p s hne
      rcases List.eq_nil_or_concat after with rfl | ⟨front, last, rfl⟩
      · simp only [hkept, List.getLast_append_singleton] at hlast
        exact absurd hc hlast
      · exact ⟨last, by simp, by simpa [hkept] using hlast⟩
  · rintro ⟨before, after, rfl, c', hc', hp⟩
    rw [← dropEndWhile_eq, dropEndWhile_append ⟨c', List.mem_cons_of_mem _ hc', hp⟩,
      ← List.singleton_append, dropEndWhile_append ⟨c', hc', hp⟩]
    simp

theorem trim_eq_self_of_ends {s : List Char} {first last : Char} (hfirst : s.head? = some first)
    (hlast : s.getLast? = some last) (hblank : isBlank first = false)
    (hblank' : isBlank last = false) : trim s = s := by
  obtain ⟨rest, rfl⟩ := List.head?_eq_some_iff.mp hfirst
  have hfront : trimFront (first :: rest) = first :: rest :=
    List.dropWhile_cons_of_neg (by simp [hblank])
  obtain ⟨front, hfront'⟩ := List.getLast?_eq_some_iff.mp hlast
  rw [trim, hfront, hfront', dropEndWhile_eq, List.rdropWhile_concat_neg _ _ _ (by simp [hblank'])]

/-- A word at the start of a text is not touched when blanks are dropped. -/
theorem trim_append {word : List Char} (hne : word ≠ []) (hword : ∀ c ∈ word, isBlank c = false)
    (s : List Char) : trim (word ++ s) = word ++ dropEndWhile isBlank s := by
  have hend : dropEndWhile isBlank (word ++ s) = word ++ dropEndWhile isBlank s := by
    clear hne
    induction word with
    | nil => rfl
    | cons c word ih =>
      obtain ⟨hc, hword⟩ := List.forall_mem_cons.mp hword
      rw [List.cons_append, dropEndWhile_cons hc, ih hword, List.cons_append]
  obtain ⟨c, word, rfl⟩ := List.exists_cons_of_ne_nil hne
  have hfront : trimFront (c :: word ++ s) = c :: word ++ s :=
    List.dropWhile_cons_of_neg (by simp [hword c List.mem_cons_self])
  rw [trim, hfront, hend]

/-- Blanks in front make no difference to what is left. -/
theorem trim_blanks_append {front : List Char} (hfront : ∀ c ∈ front, isBlank c = true)
    (s : List Char) : trim (front ++ s) = trim s := by
  rw [trim, trimFront, List.dropWhile_append_of_pos hfront, trim, trimFront]

/-- Neither do blanks at the end. -/
theorem trim_append_blanks {back : List Char} (hback : ∀ c ∈ back, isBlank c = true)
    (s : List Char) : trim (s ++ back) = trim s := by
  have hend (t : List Char) : dropEndWhile isBlank (t ++ back) = dropEndWhile isBlank t := by
    rw [dropEndWhile, List.reverse_append, List.dropWhile_append_of_pos (by simpa using hback),
      dropEndWhile]
  cases hs : (trimFront s).isEmpty with
  | true =>
    -- There are blanks only, so nothing is left of either text.
    have hall : trimFront back = [] := List.dropWhile_eq_nil_iff.mpr hback
    have hnil : trimFront s = [] := List.isEmpty_iff.mp hs
    rw [trim, trim, hnil, trimFront, List.dropWhile_append, ← trimFront, hs, if_pos rfl, ← trimFront,
      hall]
  | false =>
    rw [trim, trim, trimFront, List.dropWhile_append, ← trimFront, hs, if_neg Bool.false_ne_true,
      hend]

/-- A text without blanks at its ends starts with a character that is not blank. -/
theorem isBlank_of_trim_eq_cons {s rest : List Char} {c : Char} (h : trim s = c :: rest) :
    isBlank c = false := by
  have hfront : dropEndWhile isBlank (trimFront s) <+: trimFront s :=
    List.rdropWhile_prefix isBlank (trimFront s)
  obtain ⟨dropped, hs⟩ := hfront
  rw [show dropEndWhile isBlank (trimFront s) = c :: rest from h, trimFront] at hs
  have hhead := List.head?_dropWhile_not isBlank s
  rw [← hs] at hhead
  exact hhead

end SnapshotAnalytics.Text

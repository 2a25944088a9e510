import SnapshotAnalytics.Proofs.Text.Ends
import SnapshotAnalytics.Proofs.Text.Splitting

/-!
# Lines

A text can be made up line by line, each line with an end of its own. A reader of lines that passes
over blank lines, and to which a carriage return at the end of a line makes no difference, reads the
same from such a text whatever blank lines there are and whichever ends the lines have.
-/

namespace SnapshotAnalytics.Text

/-! ## §1 Blank lines -/

/-- Whether there is more than white space in a line. -/
def isFilled (line : List Char) : Bool :=
  line.any fun c => !isBlank c

theorem isFilled_eq_false_iff {line : List Char} :
    isFilled line = false ↔ ∀ c ∈ line, isBlank c = true := by
  simp [isFilled]

theorem isEmpty_trim (line : List Char) : (trim line).isEmpty = !isFilled line := by
  cases h : isFilled line with
  | false =>
    have hblank : trimFront line = [] :=
      List.dropWhile_eq_nil_iff.mpr (isFilled_eq_false_iff.mp h)
    rw [trim, hblank]
    rfl
  | true =>
    -- The blanks at the two ends go, the other character stays.
    obtain ⟨c, hc, hkept⟩ := List.any_eq_true.mp h
    rw [Bool.not_true, List.isEmpty_eq_false_iff, trim, dropEndWhile_eq, Ne,
      List.rdropWhile_eq_nil_iff]
    intro hall
    have hne : trimFront line ≠ [] := fun hnil =>
      absurd (List.dropWhile_eq_nil_iff.mp hnil c hc) (by simpa using hkept)
    have hhead := List.head_dropWhile_not isBlank hne
    exact absurd (hall _ (List.head_mem hne)) (by simpa [trimFront] using hhead)

theorem isFilled_concat_return (line : List Char) : isFilled (line ++ ['\r']) = isFilled line := by
  rw [isFilled, List.any_append, show ['\r'].any (fun c => !isBlank c) = false by decide,
    Bool.or_false, isFilled]

/-- The lines of a text that are not blank, in their order. -/
def filledLines (s : List Char) : List (List Char) :=
  (lines s).filter isFilled

/-! ## §2 Pieces of a text -/

theorem mem_of_mem_splitOn {separator c : Char} {s piece : List Char}
    (hpiece : piece ∈ splitOn separator s) (hc : c ∈ piece) : c ∈ s := by
  induction s generalizing piece with
  | nil =>
    rw [splitOn, List.mem_singleton] at hpiece
    rwa [hpiece] at hc
  | cons d s ih =>
    rw [splitOn] at hpiece
    split at hpiece
    case isTrue =>
      rcases List.mem_cons.mp hpiece with rfl | hpiece
      · cases hc
      · exact List.mem_cons_of_mem _ (ih hpiece hc)
    case isFalse =>
      -- The character goes in front of the first piece, and the others stay as they are.
      obtain ⟨first, pieces, hs⟩ := List.exists_cons_of_ne_nil (splitOn_ne_nil separator s)
      rw [hs] at ih hpiece
      rcases List.mem_cons.mp hpiece with rfl | hpiece
      · rcases List.mem_cons.mp hc with rfl | hc
        · exact List.mem_cons_self
        · exact List.mem_cons_of_mem _ (ih List.mem_cons_self hc)
      · exact List.mem_cons_of_mem _ (ih (List.mem_cons_of_mem _ hpiece) hc)

/-- A character that does not cut goes to the last piece. -/
theorem splitOn_concat {separator c : Char} (hc : c ≠ separator) (s : List Char) :
    ∃ front last, splitOn separator s = front ++ [last] ∧
      splitOn separator (s ++ [c]) = front ++ [last ++ [c]] := by
  induction s with
  | nil => exact ⟨[], [], rfl, by simp [splitOn, hc]⟩
  | cons d s ih =>
    obtain ⟨front, last, hs, hconcat⟩ := ih
    rw [List.cons_append, splitOn, splitOn, hs, hconcat]
    split
    case isTrue => exact ⟨[] :: front, last, rfl, rfl⟩
    case isFalse =>
      cases front with
      | nil => exact ⟨[], d :: last, rfl, rfl⟩
      | cons piece front => exact ⟨(d :: piece) :: front, last, rfl, rfl⟩

/-! ## §3 Texts made up of lines -/

/-- What a line can end with. -/
inductive LineEnd where
  | feed
  | returnFeed

def LineEnd.chars : LineEnd → List Char
  | feed => ['\n']
  | returnFeed => ['\r', '\n']

/-- The text of some lines, each with its end, and of a last line without one. -/
def ofLines (ended : List (List Char × LineEnd)) (last : List Char) : List Char :=
  ended.flatMap (fun (line, lineEnd) => line ++ lineEnd.chars) ++ last

theorem eq_or_eq_concat_return (line : List Char) :
    dropCarriageReturn line = line ∨ line = dropCarriageReturn line ++ ['\r'] := by
  rcases List.eq_nil_or_concat' line with rfl | ⟨front, c, rfl⟩
  · exact Or.inl rfl
  · rw [dropCarriageReturn, List.reverse_concat]
    split
    case h_1 rest h =>
      cases h
      exact Or.inr (by rw [List.reverse_reverse])
    case h_2 => exact Or.inl rfl

theorem splitOn_flatMap_feed {texts : List (List Char)} (h : ∀ s ∈ texts, '\n' ∉ s) :
    splitOn '\n' (texts.flatMap (· ++ ['\n'])) = texts ++ [[]] := by
  induction texts with
  | nil => rfl
  | cons s texts ih =>
    obtain ⟨hs, htexts⟩ := List.forall_mem_cons.mp h
    rw [List.flatMap_cons, List.append_assoc, List.singleton_append, splitOn_eq,
      List.splitOn_append_cons_self, ← splitOn_eq, ← splitOn_eq, splitOn_of_not_mem hs, ih htexts,
      List.singleton_append, List.cons_append]

/-- Texts that stand on one line each are the lines of what they make up. -/
theorem lines_flatMap_feed {texts : List (List Char)} (hfeed : ∀ s ∈ texts, '\n' ∉ s)
    (hreturn : ∀ s ∈ texts, '\r' ∉ s) : lines (texts.flatMap (· ++ ['\n'])) = texts := by
  have hkept : ∀ s ∈ texts, dropCarriageReturn s = s := by
    intro s hs
    rcases eq_or_eq_concat_return s with h | h
    · exact h
    · have hmem : '\r' ∈ s := by
        rw [h]
        exact List.mem_append_right _ List.mem_cons_self
      exact absurd hmem (hreturn s hs)
  rw [lines, splitOn_flatMap_feed hfeed, List.reverse_concat]
  show texts.reverse.reverse.map dropCarriageReturn = texts
  rw [List.reverse_reverse, List.map_congr_left hkept, List.map_id']

/-! ## §4 Reading lines -/

section

variable {α : Type} {read : List Char → Option α}
  (hreturn : ∀ line, read (line ++ ['\r']) = read line)
  (hblank : ∀ line, isFilled line = false → read line = none)

include hreturn hblank

/-- The lines of a text are its pieces, up to carriage returns and an empty line at the end. -/
theorem filterMap_lines (s : List Char) :
    (lines s).filterMap read = (splitOn '\n' s).filterMap read := by
  have hdrop (line : List Char) : read (dropCarriageReturn line) = read line := by
    rcases eq_or_eq_concat_return line with h | h
    · rw [h]
    · conv_rhs => rw [h, hreturn]
  obtain hnil | ⟨front, last, hs⟩ := List.eq_nil_or_concat' (splitOn '\n' s)
  · exact absurd hnil (splitOn_ne_nil '\n' s)
  · have hfront : (front.map dropCarriageReturn).filterMap read = front.filterMap read := by
      rw [List.filterMap_map]
      exact List.filterMap_congr fun line _ => hdrop line
    rw [lines, hs, List.reverse_concat]
    -- The last piece is no line if it is empty, and an empty line reads as nothing.
    cases last with
    | nil =>
      show (front.reverse.reverse.map dropCarriageReturn).filterMap read = _
      have hempty : [[]].filterMap read = [] := List.filterMap_cons_none (hblank [] rfl)
      rw [List.reverse_reverse, hfront, List.filterMap_append, hempty, List.append_nil]
    | cons c last =>
      show (front.reverse.reverse.map dropCarriageReturn ++ [c :: last]).filterMap read = _
      rw [List.reverse_reverse, List.filterMap_append, hfront, ← List.filterMap_append]

omit hreturn in
theorem filterMap_splitOn_of_blank {s : List Char} (h : isFilled s = false) :
    (splitOn '\n' s).filterMap read = [] :=
  List.filterMap_eq_nil_iff.mpr fun piece hpiece => hblank piece <|
    isFilled_eq_false_iff.mpr fun c hc => isFilled_eq_false_iff.mp h c (mem_of_mem_splitOn hpiece hc)

omit hblank in
/-- Nothing depends on how a line ends. -/
theorem filterMap_splitOn_lineEnd (line : List Char) (lineEnd : LineEnd) (s : List Char) :
    (splitOn '\n' (line ++ lineEnd.chars ++ s)).filterMap read =
      (splitOn '\n' line).filterMap read ++ (splitOn '\n' s).filterMap read := by
  cases lineEnd with
  | feed =>
    rw [LineEnd.chars, List.append_assoc, List.singleton_append, splitOn_eq,
      List.splitOn_append_cons_self, ← splitOn_eq, ← splitOn_eq, List.filterMap_append]
  | returnFeed =>
    obtain ⟨front, last, hline, hconcat⟩ := splitOn_concat (show '\r' ≠ '\n' by decide) line
    have hpieces : line ++ LineEnd.returnFeed.chars ++ s = line ++ ['\r'] ++ '\n' :: s := by
      simp [LineEnd.chars]
    have hlast : [last ++ ['\r']].filterMap read = [last].filterMap read := by
      rw [List.filterMap_cons, hreturn, ← List.filterMap_cons]
    rw [hpieces, splitOn_eq, List.splitOn_append_cons_self, ← splitOn_eq, ← splitOn_eq, hconcat,
      hline, List.filterMap_append, List.filterMap_append, hlast, ← List.filterMap_append]

omit hblank in
theorem filterMap_splitOn_ofLines (ended : List (List Char × LineEnd)) (last : List Char) :
    (splitOn '\n' (ofLines ended last)).filterMap read =
      (ended.map (·.1) ++ [last]).flatMap fun line => (splitOn '\n' line).filterMap read := by
  induction ended with
  | nil => simp [ofLines]
  | cons line ended ih =>
    rw [ofLines, List.flatMap_cons, List.append_assoc, filterMap_splitOn_lineEnd hreturn]
    rw [ofLines] at ih
    rw [ih, List.map_cons, List.cons_append, List.flatMap_cons]

omit hreturn in
theorem filterMap_splitOn_filled (texts : List (List Char)) :
    (splitOn '\n' (['\n'].intercalate (texts.filter isFilled))).filterMap read =
      texts.flatMap fun line => (splitOn '\n' line).filterMap read := by
  have hfilled : texts.flatMap (fun line => (splitOn '\n' line).filterMap read) =
      (texts.filter isFilled).flatMap fun line => (splitOn '\n' line).filterMap read := by
    induction texts with
    | nil => rfl
    | cons line texts ih =>
      -- A text that is blank throughout has only blank lines, which read as nothing.
      cases hline : isFilled line with
      | false =>
        rw [List.filter_cons_of_neg (by simp [hline]), ← ih, List.flatMap_cons,
          filterMap_splitOn_of_blank hblank hline, List.nil_append]
      | true =>
        rw [List.filter_cons_of_pos hline, List.flatMap_cons, List.flatMap_cons, ih]
  rw [hfilled]
  cases hnil : texts.filter isFilled with
  | nil => exact filterMap_splitOn_of_blank hblank rfl
  | cons line rest =>
    rw [splitOn_intercalate_eq_flatMap '\n' (List.cons_ne_nil line rest), List.filterMap_flatMap]

/-- **Blank lines and line ends do not matter**: what is read from the lines of a text is read from its
filled lines alone, with a line feed between any two of them. -/
theorem filterMap_lines_ofLines (ended : List (List Char × LineEnd)) (last : List Char) :
    (lines (ofLines ended last)).filterMap read =
      (lines (['\n'].intercalate ((ended.map (·.1) ++ [last]).filter isFilled))).filterMap read := by
  rw [filterMap_lines hreturn hblank, filterMap_splitOn_ofLines hreturn,
    filterMap_lines hreturn hblank, filterMap_splitOn_filled hblank]

end

end SnapshotAnalytics.Text

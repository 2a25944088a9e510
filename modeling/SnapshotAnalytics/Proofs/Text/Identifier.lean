import SnapshotAnalytics.Proofs.Text.Splitting
import SnapshotAnalytics.Text.Identifier

/-!
# Characters of identifiers

An identifier is made of letters, digits and underscores, the name of a table also of points.
-/

namespace SnapshotAnalytics.Text

/-- What a joined text is made of. -/
theorem mem_intercalate {separator : List Char} {c : Char} {pieces : List (List Char)}
    (hc : c ∈ separator.intercalate pieces) : c ∈ separator ∨ ∃ piece ∈ pieces, c ∈ piece := by
  induction pieces with
  | nil => cases hc
  | cons piece pieces ih =>
    -- There is a separator only if another piece follows.
    cases pieces with
    | nil =>
      rw [List.intercalate_singleton] at hc
      exact Or.inr ⟨piece, List.mem_cons_self .., hc⟩
    | cons next pieces =>
      rw [List.intercalate_cons_cons, List.mem_append, List.mem_append] at hc
      rcases hc with (hpiece | hseparator) | hrest
      · exact Or.inr ⟨piece, List.mem_cons_self .., hpiece⟩
      · exact Or.inl hseparator
      · rcases ih hrest with hseparator | ⟨other, hother, hc⟩
        · exact Or.inl hseparator
        · exact Or.inr ⟨other, List.mem_cons_of_mem _ hother, hc⟩

theorem isIdentifierPart_of_mem {s : List Char} (hs : isIdentifierText s = true) {c : Char}
    (hc : c ∈ s) : isIdentifierPart c = true := by
  cases s with
  | nil => cases hc
  | cons first rest =>
    rw [isIdentifierText, Bool.and_eq_true, List.all_eq_true] at hs
    rcases List.mem_cons.mp hc with rfl | hrest
    · have hstart := hs.1
      simp only [isIdentifierStart, isIdentifierPart, Char.isAlphanum, Bool.or_eq_true] at hstart ⊢
      rcases hstart with halpha | hunderscore
      · exact Or.inl (Or.inl halpha)
      · exact Or.inr hunderscore
    · exact hs.2 c hrest

/-- The characters of an identifier. -/
theorem isIdentifierPart_of_isIdentifier {name : String} (hname : isIdentifier name = true)
    {c : Char} (hc : c ∈ name.toList) : isIdentifierPart c = true :=
  isIdentifierPart_of_mem hname hc

/-- The characters of the name of a table. -/
theorem isIdentifierPart_of_isTableIdentifier {name : String} (hname : isTableIdentifier name = true)
    {c : Char} (hc : c ∈ name.toList) : isIdentifierPart c = true ∨ c = '.' := by
  rw [isTableIdentifier, Bool.and_eq_true, List.all_eq_true] at hname
  -- The name is its parts with points between them, and its parts are identifiers.
  rw [← intercalate_splitOn '.' name.toList] at hc
  rcases mem_intercalate hc with hpoint | ⟨part, hpart, hc⟩
  · exact Or.inr (List.mem_singleton.mp hpoint)
  · exact Or.inl (isIdentifierPart_of_mem (hname.2 part hpart) hc)

end SnapshotAnalytics.Text

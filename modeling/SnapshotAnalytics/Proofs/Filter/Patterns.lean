import Mathlib.Data.List.Forall2
import SnapshotAnalytics.Filter.Predicate
import SnapshotAnalytics.Proofs.Text.Replacing

/-!
# Patterns of substrings

A warehouse matches a pattern against a text from left to right: a percent sign stands for any run of
characters, an underscore for any one, and a backslash makes the character behind it literal. In the
pattern of a value all characters of the value are literal, whichever they are, and both ends are open.
So the pattern matches exactly the texts in which the value occurs.
-/

namespace SnapshotAnalytics

/-! ## §1 Matching -/

namespace Sql

/-- A text matches a pattern. How literal characters compare with those of the text is left open, as a
warehouse may fold their case. -/
inductive Like (same : Char → Char → Prop) : List Char → List Char → Prop where
  | nil : Like same [] []
  | run {pattern s : List Char} (skipped : List Char) :
      Like same pattern s → Like same ('%' :: pattern) (skipped ++ s)
  | single {pattern s : List Char} (c : Char) :
      Like same pattern s → Like same ('_' :: pattern) (c :: s)
  | escaped {pattern s : List Char} {c d : Char} :
      same c d → Like same pattern s → Like same ('\\' :: c :: pattern) (d :: s)
  | literal {pattern s : List Char} {c d : Char} :
      c ∉ ['%', '_', '\\'] → same c d → Like same pattern s → Like same (c :: pattern) (d :: s)

variable {same : Char → Char → Prop} {pattern s : List Char}

theorem like_run_iff :
    Like same ('%' :: pattern) s ↔ ∃ skipped rest, s = skipped ++ rest ∧ Like same pattern rest := by
  constructor
  · intro h
    cases h with
    | run skipped hrest => exact ⟨skipped, _, rfl, hrest⟩
    | literal hplain => simp at hplain
  · rintro ⟨skipped, rest, rfl, hrest⟩
    exact .run skipped hrest

theorem like_escaped_iff {c : Char} :
    Like same ('\\' :: c :: pattern) s ↔ ∃ d rest, s = d :: rest ∧ same c d ∧ Like same pattern rest := by
  constructor
  · intro h
    cases h with
    | escaped hsame hrest => exact ⟨_, _, rfl, hsame, hrest⟩
    | literal hplain => simp at hplain
  · rintro ⟨d, rest, rfl, hsame, hrest⟩
    exact .escaped hsame hrest

theorem like_literal_iff {c : Char} (hc : c ∉ ['%', '_', '\\']) :
    Like same (c :: pattern) s ↔ ∃ d rest, s = d :: rest ∧ same c d ∧ Like same pattern rest := by
  constructor
  · intro h
    cases h with
    | literal _ hsame hrest => exact ⟨_, _, rfl, hsame, hrest⟩
    | run | single | escaped => simp at hc
  · rintro ⟨d, rest, rfl, hsame, hrest⟩
    exact .literal hc hsame hrest

end Sql

/-! ## §2 Escaped values -/

namespace Predicate

open Text

/-- Escaping a value is replacing backslashes first, then percent signs, then underscores: the
backslashes that the later steps put in are not doubled. -/
theorem flatMap_escapePatternChar (s : List Char) :
    s.flatMap escapePatternChar =
      replace ['_'] ['\\', '_'] (replace ['%'] ['\\', '%'] (replace ['\\'] ['\\', '\\'] s)) := by
  simp only [replace_singleton, List.flatMap_assoc]
  apply List.flatMap_congr
  intro c _
  unfold escapePatternChar
  by_cases hbackslash : c = '\\'
  · subst hbackslash
    rfl
  by_cases hpercent : c = '%'
  · subst hpercent
    rfl
  by_cases hunderscore : c = '_'
  · subst hunderscore
    rfl
  simp [hbackslash, hpercent, hunderscore]

variable {same : Char → Char → Prop} {pattern s : List Char}

/-- An escaped character matches one character, whatever it is. -/
theorem like_escapePatternChar_iff {c : Char} :
    Sql.Like same (escapePatternChar c ++ pattern) s ↔
      ∃ d rest, s = d :: rest ∧ same c d ∧ Sql.Like same pattern rest := by
  unfold escapePatternChar
  split
  · exact Sql.like_escaped_iff
  · rename_i hplain
    apply Sql.like_literal_iff
    simp_all

/-- An escaped value matches one character for each of its own. -/
theorem like_escaped_append_iff {value : List Char} :
    Sql.Like same (value.flatMap escapePatternChar ++ pattern) s ↔
      ∃ run rest, s = run ++ rest ∧ List.Forall₂ same value run ∧ Sql.Like same pattern rest := by
  induction value generalizing s with
  | nil => simp
  | cons c value ih =>
    rw [List.flatMap_cons, List.append_assoc, like_escapePatternChar_iff]
    constructor
    · rintro ⟨d, rest, rfl, hsame, hrest⟩
      obtain ⟨run, behind, rfl, hrun, hbehind⟩ := ih.mp hrest
      exact ⟨d :: run, behind, rfl, .cons hsame hrun, hbehind⟩
    · rintro ⟨run, behind, rfl, hrun, hbehind⟩
      cases hrun with
      | @cons _ d _ run hsame hrun =>
        exact ⟨d, run ++ behind, rfl, hsame, ih.mpr ⟨run, behind, rfl, hrun, hbehind⟩⟩

/-! ## §3 Patterns of values -/

/-- The pattern of a value matches a text when some characters of the text that follow each other are
those of the value, one by one. -/
theorem like_pattern_iff (value text : String) :
    Sql.Like same (Predicate.pattern value).toList text.toList ↔
      ∃ run, run <:+: text.toList ∧ List.Forall₂ same value.toList run := by
  have hopen (rest : List Char) : Sql.Like same ['%'] rest := by
    rw [← List.append_nil rest]
    exact .run rest .nil
  rw [Predicate.pattern, String.toList_ofList, List.cons_append, Sql.like_run_iff]
  constructor
  · rintro ⟨before, rest, htext, hrest⟩
    obtain ⟨run, behind, rfl, hrun, -⟩ := like_escaped_append_iff.mp hrest
    exact ⟨run, ⟨before, behind, by rw [htext, List.append_assoc]⟩, hrun⟩
  · rintro ⟨run, ⟨before, behind, htext⟩, hrun⟩
    exact ⟨before, run ++ behind, by rw [← htext, List.append_assoc],
      like_escaped_append_iff.mpr ⟨run, behind, rfl, hrun, hopen behind⟩⟩

/-- The patterns of values are bound in their order. -/
theorem forall₂_bindPatterns (filter : Nat) (values : List String) :
    List.Forall₂ (fun value p => Predicate.pattern value = p.value) values
      (bindPatterns filter values) := by
  rw [List.forall₂_iff_get]
  refine ⟨List.length_mapIdx.symm, fun i _ _ => ?_⟩
  simp [bindPatterns]

/-- **Patterns match exactly the texts in which their values occur.** Each value of a filter is bound
with its backslashes, percent signs and underscores escaped, between two percent signs. However
characters are compared, this matches a text exactly when the characters of the value occur in it. -/
theorem like_bindPatterns (same : Char → Char → Prop) (filter : Nat) (values : List String) :
    List.Forall₂
      (fun (value : String) (p : Parameter) =>
        p.value.toList =
            '%' :: replace ['_'] ['\\', '_']
              (replace ['%'] ['\\', '%'] (replace ['\\'] ['\\', '\\'] value.toList)) ++ ['%'] ∧
          ∀ text : String, Sql.Like same p.value.toList text.toList ↔
            ∃ run, run <:+: text.toList ∧ List.Forall₂ same value.toList run)
      values (bindPatterns filter values) := by
  refine (forall₂_bindPatterns filter values).imp fun value p hp => ?_
  rw [← hp]
  refine ⟨?_, fun text => like_pattern_iff value text⟩
  rw [← flatMap_escapePatternChar, Predicate.pattern, String.toList_ofList]

end Predicate

end SnapshotAnalytics

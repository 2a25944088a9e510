import SnapshotAnalytics.Proofs.Text.Ends
import SnapshotAnalytics.Proofs.Text.Splitting
import SnapshotAnalytics.Proofs.Text.Tokens
import SnapshotAnalytics.Proofs.Text.Wording
import SnapshotAnalytics.Text.Casing

/-!
# Words inside texts

What is found in a text is a part of it. A word with blanks around it is a token of the text, and two
words with a blank between them are found in joined words only where two neighbours end and start with
them. In plain ASCII changing the case changes letters one by one and leaves everything else.
-/

namespace SnapshotAnalytics.Text

/-! ## §1 Occurrences -/

theorem occurs_iff {part s : List Char} : occurs part s = true ↔ part <:+: s := by
  induction s with
  | nil => simp [occurs]
  | cons c s ih =>
    rw [occurs, Bool.or_eq_true, ih, List.isPrefixOf_iff_prefix, List.infix_cons_iff]

/-- A text is not changed but at its ends by dropping blanks there. -/
theorem trim_isInfix (s : List Char) : trim s <:+: s := by
  have hfront : trimFront s <:+: s := (List.dropWhile_suffix isBlank).isInfix
  have hback : trim s <+: trimFront s :=
    List.rdropWhile_prefix isBlank (trimFront s)
  exact hback.isInfix.trans hfront

/-- A word with blanks around it is a token. -/
theorem mem_tokens_of_blanks {word : List Char} (hne : word ≠ [])
    (hword : ∀ c ∈ word, isIdentifierPart c = true) (before behind : List Char) :
    word ∈ tokens (before ++ ' ' :: word ++ ' ' :: behind) := by
  have hblank : EndsApart (before ++ [' ']) := EndsApart.append (List.cons_ne_nil _ _) (by decide)
  have hbehind : StartsApart (' ' :: behind) := by
    intro c hc
    cases hc
    decide
  have hparts : before ++ ' ' :: word ++ ' ' :: behind =
      (before ++ [' ']) ++ (word ++ (' ' :: behind)) := by simp
  rw [hparts, tokens_append (Or.inl hblank), tokens_append (Or.inr hbehind),
    tokens_word hne fun c hc => Or.inl (hword c hc)]
  simp

/-! ## §2 Joined words -/

theorem infix_intercalate (word : List Char) {before behind : List Char}
    (front back : List (List Char)) :
    ' ' :: word ++ [' '] <:+: [' '].intercalate (front ++ before :: word :: behind :: back) := by
  induction front with
  | nil =>
    rw [List.nil_append, List.intercalate_cons_cons, List.intercalate_cons_cons]
    exact ⟨before, [' '].intercalate (behind :: back), by simp⟩
  | cons first front ih =>
    have hne : front ++ before :: word :: behind :: back ≠ [] := by simp
    have hrest : [' '].intercalate (first :: (front ++ before :: word :: behind :: back)) =
        first ++ [' '] ++ [' '].intercalate (front ++ before :: word :: behind :: back) :=
      List.intercalate_cons_of_ne_nil hne
    exact ih.trans (hrest ▸ (List.suffix_append _ _).isInfix)

/-- The last piece of a text ends with what the text ends with. -/
theorem exists_splitOn_concat {separator : Char} {part : List Char} (hpart : separator ∉ part)
    (s : List Char) :
    ∃ front last, splitOn separator (s ++ part) = front ++ [last] ∧ part <:+ last := by
  induction s with
  | nil => exact ⟨[], part, splitOn_of_not_mem hpart, List.suffix_rfl⟩
  | cons c s ih =>
    obtain ⟨front, last, hs, hlast⟩ := ih
    rw [List.cons_append, splitOn]
    split
    case isTrue => exact ⟨[] :: front, last, by rw [hs]; rfl, hlast⟩
    case isFalse =>
      rw [hs]
      cases front with
      | nil => exact ⟨[], c :: last, rfl, hlast.trans (List.suffix_cons c last)⟩
      | cons first front => exact ⟨(c :: first) :: front, last, rfl, hlast⟩

/-- The first piece of a text starts with what the text starts with. -/
theorem exists_splitOn_cons {separator : Char} {part : List Char} (hpart : separator ∉ part)
    (s : List Char) : ∃ first back, splitOn separator (part ++ s) = first :: back ∧ part <+: first := by
  induction part with
  | nil =>
    obtain ⟨first, back, hs⟩ := List.exists_cons_of_ne_nil (splitOn_ne_nil separator s)
    exact ⟨first, back, hs, List.nil_prefix⟩
  | cons c part ih =>
    have hc : separator ≠ c := List.ne_of_not_mem_cons hpart
    obtain ⟨first, back, hs, hfirst⟩ := ih (List.not_mem_of_not_mem_cons hpart)
    rw [List.cons_append, splitOn, if_neg (Ne.symm hc), hs]
    exact ⟨c :: first, back, rfl, List.prefix_cons_inj c |>.mpr hfirst⟩

/-- **Two words in joined words** are found only where two neighbours end and start with them. -/
theorem not_infix_of_isChain {p q : List Char} (hp : ' ' ∉ p) (hq : ' ' ∉ q)
    {words : List (List Char)} (hfree : ∀ word ∈ words, ' ' ∉ word) (hne : words ≠ [])
    (hchain : words.IsChain fun word word' => ¬ (p <:+ word ∧ q <+: word')) :
    ¬ p ++ ' ' :: q <:+: [' '].intercalate words := by
  rintro ⟨before, behind, hparts⟩
  obtain ⟨front, last, hfront, hlast⟩ := exists_splitOn_concat hp before
  obtain ⟨first, back, hback, hfirst⟩ := exists_splitOn_cons hq behind
  have hwords : words = front ++ last :: first :: back := by
    rw [← splitOn_intercalate hfree hne, ← hparts]
    have hcut : before ++ (p ++ ' ' :: q) ++ behind = (before ++ p) ++ ' ' :: (q ++ behind) := by simp
    rw [hcut, splitOn_eq, List.splitOn_append_cons_self, ← splitOn_eq, ← splitOn_eq, hfront, hback]
    simp
  exact List.isChain_iff_forall_rel_of_append_cons_cons.mp hchain hwords ⟨hlast, hfirst⟩

/-! ## §3 Upper case -/

/-- What holds of the first 128 characters holds of every plain ASCII character. -/
theorem forall_ascii {P : Char → Prop} (h : ∀ n < 128, P (Char.ofNat n)) {c : Char}
    (hc : c.toNat < 128) : P c := by
  rw [← Char.ofNat_toNat c]
  exact h c.toNat hc

theorem upperChar_of_ascii {c : Char} (hc : c.toNat < 128) : upperChar c = [c.toUpper] := by
  have hplain : ∀ e ∈ upperExceptions, ¬ e.1.toNat < 128 := by decide
  have hlookup : upperExceptions.lookup c = none := by
    rw [List.lookup_eq_none_iff]
    intro e he
    have hne : c ≠ e.1 := fun hsame => hplain e he (hsame ▸ hc)
    simpa using hne
  rw [upperChar, hlookup]
  rfl

theorem upper_of_ascii {s : List Char} (hs : ∀ c ∈ s, c.toNat < 128) :
    upper s = s.map Char.toUpper := by
  induction s with
  | nil => rfl
  | cons c s ih =>
    obtain ⟨hc, hs⟩ := List.forall_mem_cons.mp hs
    rw [upper, List.flatMap_cons, upperChar_of_ascii hc, List.map_cons, ← ih hs]
    rfl

theorem upper_append (s t : List Char) : upper (s ++ t) = upper s ++ upper t :=
  List.flatMap_append

theorem upper_isInfix {s t : List Char} (h : s <:+: t) : upper s <:+: upper t := by
  obtain ⟨before, behind, rfl⟩ := h
  exact ⟨upper before, upper behind, by rw [upper_append, upper_append]⟩

theorem upper_intercalate (words : List (List Char)) :
    upper ([' '].intercalate words) = [' '].intercalate (words.map upper) := by
  induction words with
  | nil => rfl
  | cons word words ih =>
    cases words with
    | nil => simp
    | cons next words =>
      rw [List.intercalate_cons_cons, upper_append, upper_append, ih]
      simp only [List.map_cons, List.intercalate_cons_cons]
      rfl

/-- Letters are raised to letters, and no other character is raised to one. -/
theorem isAlpha_of_toUpper {c : Char} (hc : c.toNat < 128) (h : c.toUpper.isAlpha = true) :
    c.isAlpha = true := by
  revert h
  exact forall_ascii (P := fun c => c.toUpper.isAlpha = true → c.isAlpha = true) (by decide) hc

theorem toUpper_eq_blank {c : Char} (hc : c.toNat < 128) (h : c.toUpper = ' ') : c = ' ' := by
  revert h
  exact forall_ascii (P := fun c => c.toUpper = ' ' → c = ' ') (by decide) hc

/-- There is no blank in a name, in upper case neither. -/
theorem blank_not_mem_upper {name : List Char}
    (h : ∀ c ∈ name, isIdentifierPart c = true ∨ c = '.') : ' ' ∉ upper name := by
  have hascii : ∀ c ∈ name, c.toNat < 128 := by
    intro c hc
    rcases h c hc with hpart | rfl
    · exact toNat_lt_of_isWordingChar (isWordingChar_of_isIdentifierPart hpart)
    · decide
  rw [upper_of_ascii hascii]
  intro hmem
  obtain ⟨c, hc, hblank⟩ := List.mem_map.mp hmem
  obtain rfl := toUpper_eq_blank (hascii c hc) hblank
  have hpart := h ' ' hc
  revert hpart
  decide

end SnapshotAnalytics.Text

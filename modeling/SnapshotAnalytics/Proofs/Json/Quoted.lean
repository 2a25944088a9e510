import SnapshotAnalytics.Json.Basic
import SnapshotAnalytics.Json.Token
import Mathlib.Tactic.SplitIfs

/-!
# Quoted texts

A text that was written in quotes is read back as itself, whatever characters it is made of. A
character is written in one of three ways; the machine passes over each of them inside a quoted text,
and the code unit it stands for is the character's own.
-/

namespace SnapshotAnalytics.Json

/-! ## §1 The three ways of writing a character -/

/-- A character that stands for itself inside a quoted text. -/
def IsPlain (c : Char) : Prop :=
  c ≠ '"' ∧ c ≠ '\\' ∧ ¬ c.toNat < 0x20

instance (c : Char) : Decidable (IsPlain c) :=
  inferInstanceAs (Decidable (_ ∧ _))

/-- How a character can stand in a quoted text: as a short escape, by its two last hexadecimal digits,
or as itself. -/
inductive WrittenAs (c : Char) : List Char → Prop where
  | short (letter : Char) (hletter : shortEscape? letter = some c) (hu : letter ≠ 'u') :
      WrittenAs c ['\\', letter]
  | unicode (a b : Char) (hvalues : Text.hexValue? a = some (c.toNat / 16) ∧
      Text.hexValue? b = some (c.toNat % 16)) (hplain : IsPlain a ∧ IsPlain b) :
      WrittenAs c ['\\', 'u', '0', '0', a, b]
  | plain (h : IsPlain c) : WrittenAs c [c]

private theorem hexValue?_control :
    ∀ n < 0x20, let a := Text.lowerHexDigit (n.toUInt8.toNat / 16)
      let b := Text.lowerHexDigit n.toUInt8.toNat
      (Text.hexValue? a = some (n / 16) ∧ Text.hexValue? b = some (n % 16)) ∧
        IsPlain a ∧ IsPlain b := by
  decide

/-- Every character is written in one of the three ways. -/
theorem writtenAs_escape (c : Char) : WrittenAs c (escape c) := by
  have hshort (letter : Char) (h : shortEscape? letter = some c) (hu : letter ≠ 'u') :
      WrittenAs c ['\\', letter] := .short letter h hu
  -- One case for each branch of `escape`, in its order.
  unfold escape
  split_ifs with h₁ h₂ h₃ h₄ h₅ h₆ h₇ h₈
  · exact hshort '"' (by rw [h₁]; rfl) (by decide)
  · exact hshort '\\' (by rw [h₂]; rfl) (by decide)
  · exact hshort 'b' (by rw [h₃]; rfl) (by decide)
  · exact hshort 'f' (by rw [h₄]; rfl) (by decide)
  · exact hshort 'n' (by rw [h₅]; rfl) (by decide)
  · exact hshort 'r' (by rw [h₆]; rfl) (by decide)
  · exact hshort 't' (by rw [h₇]; rfl) (by decide)
  · obtain ⟨hvalues, hplain⟩ := hexValue?_control c.toNat h₈
    exact .unicode _ _ hvalues hplain
  · exact .plain ⟨h₁, h₂, h₈⟩

/-! ## §2 Passing over a quoted text -/

theorem step_quoted_plain {c : Char} (h : IsPlain c) (seen : List Char) :
    (Scan.quoted seen).step c = some ([], .quoted (c :: seen)) := by
  obtain ⟨hquote, hslash, hcontrol⟩ := h
  simp only [Scan.step, if_neg hquote, if_neg hslash, if_neg hcontrol]

theorem run_quoted_plain {c : Char} (h : IsPlain c) (seen : List Char) (done : List Token)
    (rest : List Char) :
    (Scan.quoted seen).run done (c :: rest) = (Scan.quoted (c :: seen)).run done rest := by
  rw [Scan.run, step_quoted_plain h]
  rfl

/-- The machine passes over an escape and the character behind the backslash. -/
theorem run_quoted_escaped (letter : Char) (seen : List Char) (done : List Token)
    (rest : List Char) :
    (Scan.quoted seen).run done ('\\' :: letter :: rest) =
      (Scan.quoted (letter :: '\\' :: seen)).run done rest :=
  rfl

theorem run_quoted_writtenAs {c : Char} {raw : List Char} (h : WrittenAs c raw) (seen : List Char)
    (done : List Token) (rest : List Char) :
    (Scan.quoted seen).run done (raw ++ rest) =
      (Scan.quoted (raw.reverse ++ seen)).run done rest := by
  cases h with
  | short letter _ _ =>
    exact run_quoted_escaped letter seen done rest
  | unicode a b _ hplain =>
    have hzero : IsPlain '0' := by decide
    simp only [List.cons_append, List.nil_append, run_quoted_escaped, run_quoted_plain hzero,
      run_quoted_plain hplain.1, run_quoted_plain hplain.2]
    rfl
  | plain hplain =>
    exact run_quoted_plain hplain seen done rest

/-- The machine passes over the characters of a written text. -/
theorem run_quoted_flatMap (s seen : List Char) (done : List Token) (rest : List Char) :
    (Scan.quoted seen).run done (s.flatMap escape ++ rest) =
      (Scan.quoted ((s.flatMap escape).reverse ++ seen)).run done rest := by
  induction s generalizing seen with
  | nil => rfl
  | cons c s ih =>
    rw [List.flatMap_cons, List.append_assoc, run_quoted_writtenAs (writtenAs_escape c), ih,
      List.reverse_append, List.append_assoc]

/-! ## §3 What a quoted text stands for -/

/-- A written character stands for its own code point. -/
theorem codeUnits?_writtenAs {c : Char} {raw : List Char} (h : WrittenAs c raw) (rest : List Char) :
    codeUnits? (raw ++ rest) = (codeUnits? rest).map (c.toNat :: ·) := by
  cases h with
  | short letter hletter hu =>
    -- The letter is not that of a long escape, so the equation for short ones applies.
    have hcodeUnits : codeUnits? ('\\' :: letter :: rest) =
        (do return (← shortEscape? letter).toNat :: (← codeUnits? rest)) := by
      rw [codeUnits?]
      rintro a b c d s rfl
      exact absurd rfl hu
    rw [List.cons_append, List.cons_append, List.nil_append, hcodeUnits, hletter]
    cases codeUnits? rest <;> rfl
  | unicode a b hvalues _ =>
    have hzero : Text.hexValue? '0' = some 0 := rfl
    have hvalue : Text.ofHexValues [0, 0, c.toNat / 16, c.toNat % 16] = c.toNat := by
      simp only [Text.ofHexValues, List.foldl]
      omega
    simp only [List.cons_append, List.nil_append, codeUnits?, List.mapM_cons, List.mapM_nil, hzero,
      hvalues.1, hvalues.2, Option.pure_def, Option.bind_eq_bind, Option.bind_some, hvalue]
    cases codeUnits? rest <;> rfl
  | plain hplain =>
    have hslash := hplain.2.1
    -- The equation for plain characters asks that none of those for escapes applies.
    rw [List.singleton_append, codeUnits?]
    · rw [if_neg hslash]
    · rintro a b c' d s h
      exact absurd h hslash
    · rintro c' s h
      exact absurd h hslash

/-- A written text stands for its own code points. -/
theorem codeUnits?_flatMap (s : List Char) :
    codeUnits? (s.flatMap escape) = some (s.map Char.toNat) := by
  induction s with
  | nil => rfl
  | cons c s ih =>
    rw [List.flatMap_cons, codeUnits?_writtenAs (writtenAs_escape c), ih]
    rfl

/-- No character is half of a UTF-16 pair. -/
theorem not_surrogate (c : Char) : isLeading c.toNat = false ∧ isTrailing c.toNat = false := by
  have hvalid : c.toNat < 0xD800 ∨ 0xDFFF < c.toNat ∧ c.toNat < 0x110000 := c.valid
  simp only [isLeading, isTrailing, Bool.and_eq_false_iff, decide_eq_false_iff_not]
  omega

/-- Code points of characters are paired up to these characters. -/
theorem pairUp?_map_toNat (s : List Char) : pairUp? (s.map Char.toNat) = some s := by
  induction s with
  | nil => rfl
  | cons c s ih =>
    obtain ⟨hleading, htrailing⟩ := not_surrogate c
    cases s with
    | nil =>
      simp [pairUp?, hleading, htrailing, Char.ofNat_toNat]
    | cons d s =>
      rw [List.map_cons] at ih
      simp [pairUp?, hleading, htrailing, ih, Char.ofNat_toNat]

/-- The characters of a written text stand for that text. -/
theorem ofQuoted?_flatMap (s : String) :
    Token.ofQuoted? (s.toList.flatMap escape) = some (.text (some s)) := by
  rw [Token.ofQuoted?, codeUnits?_flatMap, Option.map_some, pairUp?_map_toNat, Option.map_some,
    String.ofList_toList]

/-- **Quoted texts read back**: the machine reads a text in quotes as the token of that text. -/
theorem run_quote (s : String) (done : List Token) (rest : List Char) :
    Scan.between.run done (quote s ++ rest) = Scan.between.run (.text (some s) :: done) rest := by
  have hopen : Scan.between.run done (quote s ++ rest) =
      (Scan.quoted []).run done (s.toList.flatMap escape ++ '"' :: rest) := by
    simp only [quote, List.cons_append, List.append_assoc, List.nil_append]
    rfl
  rw [hopen, run_quoted_flatMap, List.append_nil, Scan.run, Scan.step, if_pos rfl,
    List.reverse_reverse, ofQuoted?_flatMap]
  rfl

end SnapshotAnalytics.Json

import SnapshotAnalytics.Json.Token
import SnapshotAnalytics.Proofs.Number.Digits
import Mathlib.Data.List.TakeWhile

/-!
# Numerals

What a number has to be like to be read back from its text, and that natural numbers are.
-/

namespace SnapshotAnalytics.Json.Number

/-- A number whose text is a numeral of that very number. -/
structure ReadsBack (n : Number) : Prop where
  start : ∃ c s, n.text = c :: s ∧ (c = '-' ∨ c.isDigit = true)
  chars : ∀ c ∈ n.text, Scan.isNumeralChar c = true
  value : Token.ofNumeral? n.text = some (.number (some n))

/-! ## §1 Literals -/

/-- The minus sign of a literal, if it has one. -/
def sign (negative : Bool) : List Char :=
  if negative then ['-'] else []

/-- Digits are taken up to the first character that is none. -/
theorem takeWhile_digits {digits rest : List Char} (hdigits : ∀ c ∈ digits, c.isDigit = true)
    (hrest : ∀ c ∈ rest.head?, c.isDigit = false) :
    (digits ++ rest).takeWhile Char.isDigit = digits := by
  rw [List.takeWhile_append_of_pos hdigits]
  cases rest with
  | nil => exact List.append_nil digits
  | cons c s => rw [List.takeWhile_cons_of_neg (by simp [hrest c rfl]), List.append_nil]

theorem dropWhile_digits {digits rest : List Char} (hdigits : ∀ c ∈ digits, c.isDigit = true)
    (hrest : ∀ c ∈ rest.head?, c.isDigit = false) :
    (digits ++ rest).dropWhile Char.isDigit = rest := by
  rw [List.dropWhile_append_of_pos hdigits]
  cases rest with
  | nil => rfl
  | cons c s => rw [List.dropWhile_cons_of_neg (by simp [hrest c rfl])]

/-- What is read first of a literal is its sign and the digits before the point. -/
theorem read?_signed (negative : Bool) {whole rest : List Char}
    (hdigits : ∀ c ∈ whole, c.isDigit = true) (hwhole : isWholePart whole = true)
    (hrest : ∀ c ∈ rest.head?, c.isDigit = false) :
    Literal.read? (sign negative ++ (whole ++ rest)) = readTail? negative whole rest := by
  have htake := takeWhile_digits hdigits hrest
  have hdrop := dropWhile_digits hdigits hrest
  cases negative with
  | true =>
    simp only [sign, if_true, List.singleton_append, Literal.read?, htake, hdrop, hwhole]
  | false =>
    obtain ⟨c, s, hs⟩ : ∃ c s, whole = c :: s := by
      refine List.exists_cons_of_ne_nil ?_
      rintro rfl
      cases hwhole
    -- The first character is a digit, so no sign is taken away.
    have hsign : c ≠ '-' := by
      rintro rfl
      exact absurd (hdigits '-' (hs ▸ List.mem_cons_self)) (by decide)
    subst hs
    simp only [sign, Bool.false_eq_true, if_false, List.nil_append, Literal.read?]
    split
    · rename_i hminus
      exact absurd (List.cons.inj hminus).1 hsign
    · rw [htake, hdrop]
      exact if_pos hwhole

/-! ## §2 Natural numbers -/

/-- The digits of a number make up what stands before a point. -/
theorem isWholePart_toDigits (n : Nat) : isWholePart (Nat.toDigits 10 n) = true := by
  rcases Nat.eq_zero_or_pos n with rfl | hn
  · rw [Nat.toDigits_zero]
    rfl
  · obtain ⟨c, s, hs, hc⟩ := toDigits_eq_cons hn
    rw [hs]
    cases s with
    | nil => simp [isWholePart, hc]
    | cons d s => simp [isWholePart, hc]

/-- A natural number is read as a literal without sign, point and exponent. -/
theorem literal_toDigits (n : Nat) :
    Literal.read? (Nat.toDigits 10 n) = some ⟨false, Nat.toDigits 10 n, none, none⟩ := by
  have hend : ∀ c ∈ ([] : List Char).head?, c.isDigit = false := fun _ hc => nomatch hc
  have hread := read?_signed false (isDigit_toDigits n) (isWholePart_toDigits n) hend
  rwa [List.append_nil] at hread

/-- **Natural numbers read back**. -/
theorem readsBack_natural (n : UInt64) : (natural n).ReadsBack where
  start := by
    obtain ⟨c, s, hs⟩ := List.exists_cons_of_ne_nil (Nat.toDigits_ne_nil (n := n.toNat) (b := 10))
    refine ⟨c, s, hs, Or.inr ?_⟩
    exact isDigit_toDigits n.toNat c (by rw [hs]; exact List.mem_cons_self ..)
  chars := by
    intro c hc
    unfold Scan.isNumeralChar
    rw [isDigit_toDigits n.toNat c hc]
    rfl
  value := by
    have hsmall : ¬ 0x10000000000000000 ≤ n.toNat := Nat.not_le.mpr n.toNat_lt
    unfold Token.ofNumeral? text
    rw [literal_toDigits, Option.map_some]
    simp [Literal.value?, natOfDigits_toDigits, hsmall]

end SnapshotAnalytics.Json.Number

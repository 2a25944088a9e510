import SnapshotAnalytics.Proofs.Number.Digits
import SnapshotAnalytics.Proofs.Text.Identifier

/-!
# Wording

The fixed text of a statement is worded in letters, digits, blanks and a few signs. There are no braces,
quotes or semicolons among them, and no control characters.
-/

namespace SnapshotAnalytics.Text

/-- A character that the fixed text of a statement may have. -/
def isWordingChar (c : Char) : Bool :=
  isIdentifierPart c || " .,()*=<>!/".toList.contains c

/-- A text that has only such characters. -/
def IsWording (s : String) : Prop :=
  ∀ c ∈ s.toList, isWordingChar c = true

-- Characters are finitely many, but only those of the text have to be tried.
instance (s : String) : Decidable (IsWording s) :=
  List.decidableBAll (isWordingChar · = true) s.toList

theorem isWordingChar_of_isIdentifierPart {c : Char} (hc : isIdentifierPart c = true) :
    isWordingChar c = true := by
  rw [isWordingChar, hc, Bool.true_or]

/-- Letters and digits are plain ASCII, as each kind of them has a last one. -/
theorem toNat_lt_of_isAlphanum {c : Char} (hc : c.isAlphanum = true) : c.toNat < 128 := by
  have hkinds : (c.isUpper || c.isLower || c.isDigit) = true := hc
  have hupto {last : UInt32} (hle : c.val ≤ last) (hlast : last.toNat < 128) : c.toNat < 128 :=
    Nat.lt_of_le_of_lt (UInt32.le_iff_toNat_le.mp hle) hlast
  rw [Bool.or_eq_true, Bool.or_eq_true] at hkinds
  rcases hkinds with (hupper | hlower) | hdigit
  · exact hupto (of_decide_eq_true hupper).2 (by decide)
  · exact hupto (of_decide_eq_true ((Bool.and_eq_true _ _).mp hlower).2) (by decide)
  · exact hupto (of_decide_eq_true ((Bool.and_eq_true _ _).mp hdigit).2) (by decide)

/-- Wording is plain ASCII. -/
theorem toNat_lt_of_isWordingChar {c : Char} (hc : isWordingChar c = true) : c.toNat < 128 := by
  have hsigns : " .,()*=<>!/".toList.all (·.toNat < 128) = true := by decide
  rw [isWordingChar, isIdentifierPart, Bool.or_eq_true, Bool.or_eq_true, beq_iff_eq,
    List.contains_iff_mem] at hc
  rcases hc with (halphanum | rfl) | hsign
  · exact toNat_lt_of_isAlphanum halphanum
  · decide
  · exact of_decide_eq_true (List.all_eq_true.mp hsigns c hsign)

theorem isIdentifierPart_toString (n : Nat) : ∀ c ∈ (toString n).toList, isIdentifierPart c = true := by
  intro c hc
  rw [isIdentifierPart, Char.isAlphanum, isDigit_toString n c hc, Bool.or_true, Bool.true_or]

namespace IsWording

/-! ## §1 Names and numbers -/

theorem of_isIdentifier {name : String} (h : isIdentifier name = true) : IsWording name :=
  fun _ hc => isWordingChar_of_isIdentifierPart (isIdentifierPart_of_isIdentifier h hc)

theorem of_isTableIdentifier {name : String} (h : isTableIdentifier name = true) :
    IsWording name := by
  intro c hc
  rcases isIdentifierPart_of_isTableIdentifier h hc with hpart | rfl
  · exact isWordingChar_of_isIdentifierPart hpart
  · decide

theorem ofNat (n : Nat) : IsWording (toString n) :=
  fun c hc => isWordingChar_of_isIdentifierPart (isIdentifierPart_toString n c hc)

/-! ## §2 Texts put together -/

theorem append {s t : String} (hs : IsWording s) (ht : IsWording t) : IsWording (s ++ t) := by
  intro c hc
  rw [String.toList_append] at hc
  rcases List.mem_append.mp hc with hc | hc
  · exact hs c hc
  · exact ht c hc

end IsWording

end SnapshotAnalytics.Text

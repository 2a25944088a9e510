import SnapshotAnalytics.Text.Hexadecimal

/-!
# Hexadecimal digits

Digits are letters and decimal digits, and the two digits of a byte are its own.
-/

namespace SnapshotAnalytics.Text

theorem isAlphanum_lowerHexDigit (n : Nat) : (lowerHexDigit n).isAlphanum = true := by
  have hdigit : ∀ m < 16, (Nat.digitChar m).isAlphanum = true := by decide
  exact hdigit (n % 16) (Nat.mod_lt n (by decide))

theorem isAlphanum_of_mem_hex {bytes : List UInt8} {c : Char} (hc : c ∈ hex bytes) :
    c.isAlphanum = true := by
  obtain ⟨byte, _, hc⟩ := List.mem_flatMap.mp hc
  rcases List.mem_cons.mp hc with rfl | hc
  · exact isAlphanum_lowerHexDigit _
  · rw [List.mem_singleton.mp hc]
    exact isAlphanum_lowerHexDigit _

theorem lowerHexDigit_inj {m n : Nat} (h : lowerHexDigit m = lowerHexDigit n) : m % 16 = n % 16 := by
  have hdigits : ∀ i < 16, ∀ j < 16, Nat.digitChar i = Nat.digitChar j → i = j := by decide
  exact hdigits _ (Nat.mod_lt m (by decide)) _ (Nat.mod_lt n (by decide)) h

/-- The two digits of a byte are its own. -/
theorem hexPair_inj {x y : UInt8} (h : hexPair lowerHexDigit x = hexPair lowerHexDigit y) : x = y := by
  rw [hexPair, hexPair, List.cons.injEq, List.cons.injEq] at h
  -- The digits give the byte divided by sixteen and what is left over.
  have hhigh := lowerHexDigit_inj h.1
  have hlow := lowerHexDigit_inj h.2.1
  have hx := x.toNat_lt
  have hy := y.toNat_lt
  apply UInt8.toNat_inj.mp
  omega

/-- The digits of bytes are their own. -/
theorem hex_inj {xs ys : List UInt8} (h : hex xs = hex ys) : xs = ys := by
  induction xs generalizing ys with
  | nil =>
    cases ys with
    | nil => rfl
    | cons y ys => cases h
  | cons x xs ih =>
    cases ys with
    | nil => cases h
    | cons y ys =>
      rw [hex, hex, List.flatMap_cons, List.flatMap_cons] at h
      obtain ⟨hpair, hrest⟩ := List.append_inj h rfl
      rw [hexPair_inj hpair, ih hrest]

end SnapshotAnalytics.Text

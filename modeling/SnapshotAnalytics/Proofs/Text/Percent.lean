import SnapshotAnalytics.Proofs.Text.Bytes
import SnapshotAnalytics.Proofs.Text.Wording
import SnapshotAnalytics.Text.Percent

/-!
# Percent decoding

A percent sign with two digits behind it stands for a byte, any other character for its own bytes, and
the bytes are read as UTF-8. Decoding undoes encoding, and an encoded text is free of the signs that
separate the arguments of a URL.
-/

namespace SnapshotAnalytics.Text

/-! ## §1 Decoding -/

/-- The bytes that an encoded text stands for. A percent sign needs two digits behind it. -/
def percentBytes? : List Char → Option (List UInt8)
  | [] => some []
  | c :: s =>
    if c = '%' then
      match s with
      | high :: low :: s => do
        let high ← hexValue? high
        let low ← hexValue? low
        return UInt8.ofNat (16 * high + low) :: (← percentBytes? s)
      | _ => none
    else
      (percentBytes? s).map (String.utf8EncodeChar c ++ ·)

/-- The text that an encoded text stands for, if its bytes are UTF-8. -/
def percentDecode? (s : List Char) : Option String :=
  (percentBytes? s).bind fun bytes => String.fromUTF8? bytes.toByteArray

/-! ## §2 Encoded bytes -/

/-- Characters that stand for themselves are plain ASCII. -/
theorem toNat_lt_of_isUnreserved {c : Char} (hc : isUnreserved c = true) : c.toNat < 128 := by
  simp only [isUnreserved, Bool.or_eq_true, beq_iff_eq] at hc
  rcases hc with (((halphanum | rfl) | rfl) | rfl) | rfl
  · exact toNat_lt_of_isAlphanum halphanum
  all_goals decide

theorem hexValue?_upperHexDigit (n : Nat) : hexValue? (upperHexDigit n) = some (n % 16) := by
  have hdigit : ∀ m < 16, hexValue? (Nat.digitChar m).toUpper = some m := by decide
  exact hdigit (n % 16) (Nat.mod_lt n (by decide))

theorem percentBytes?_cons {c : Char} (hc : c ≠ '%') (s : List Char) :
    percentBytes? (c :: s) = (percentBytes? s).map (String.utf8EncodeChar c ++ ·) := by
  rw [percentBytes?.eq_def]
  exact if_neg hc

/-- An encoded byte is read back, whatever follows it. -/
theorem percentBytes?_percentByte (byte : UInt8) (s : List Char) :
    percentBytes? (percentByte byte ++ s) = (percentBytes? s).map (byte :: ·) := by
  have hbyte := byte.toNat_lt
  -- A byte that needs no encoding is a character of its own, and no percent sign. Any other is
  -- written as two digits, of which it is the value.
  by_cases hunreserved : isUnreserved (Char.ofNat byte.toNat) = true
  · have hchar : (Char.ofNat byte.toNat).toNat = byte.toNat := by
      have hvalid : byte.toNat.isValidChar := Or.inl (by omega)
      rw [Char.ofNat, dif_pos hvalid]
      rfl
    have hpercent : Char.ofNat byte.toNat ≠ '%' := by
      intro h
      rw [h] at hunreserved
      exact absurd hunreserved (by decide)
    have hsingle := utf8EncodeChar_of_ascii (toNat_lt_of_isUnreserved hunreserved)
    rw [hchar, UInt8.ofNat_toNat] at hsingle
    rw [percentByte, if_pos hunreserved, List.singleton_append, percentBytes?_cons hpercent, hsingle]
    rfl
  · have hvalue : UInt8.ofNat (16 * (byte.toNat / 16 % 16) + byte.toNat % 16) = byte := by
      rw [show 16 * (byte.toNat / 16 % 16) + byte.toNat % 16 = byte.toNat by omega, UInt8.ofNat_toNat]
    rw [percentByte, if_neg hunreserved, hexPair, List.cons_append, List.cons_append,
      List.singleton_append, percentBytes?, if_pos rfl]
    simp only [hexValue?_upperHexDigit, Option.bind_eq_bind, Option.bind_some, hvalue]
    cases percentBytes? s <;> rfl

theorem percentBytes?_percentEncode (s : List Char) : percentBytes? (percentEncode s) = some (utf8 s) := by
  rw [percentEncode]
  induction utf8 s with
  | nil => rfl
  | cons byte bytes ih =>
    rw [List.flatMap_cons, percentBytes?_percentByte, ih, Option.map_some]

/-! ## §3 Encoded texts -/

/-- **An encoded text is read back.** -/
theorem percentDecode?_percentEncode (s : List Char) :
    percentDecode? (percentEncode s) = some (String.ofList s) := by
  rw [percentDecode?, percentBytes?_percentEncode, Option.bind_some, toByteArray_utf8]
  unfold String.fromUTF8?
  exact dif_pos (String.ofList s).isValidUTF8

/-- An encoded text is made of characters that stand for themselves and percent signs. -/
theorem mem_percentEncode {s : List Char} {c : Char} (hc : c ∈ percentEncode s) :
    isUnreserved c = true ∨ c = '%' := by
  have hdigit (n : Nat) : isUnreserved (upperHexDigit n) = true := by
    have hdigits : ∀ m < 16, isUnreserved (Nat.digitChar m).toUpper = true := by decide
    exact hdigits (n % 16) (Nat.mod_lt n (by decide))
  obtain ⟨byte, -, hc⟩ := List.mem_flatMap.mp hc
  by_cases hunreserved : isUnreserved (Char.ofNat byte.toNat) = true
  · rw [percentByte, if_pos hunreserved, List.mem_singleton] at hc
    exact Or.inl (hc ▸ hunreserved)
  · rw [percentByte, if_neg hunreserved, hexPair, List.mem_cons, List.mem_cons, List.mem_singleton] at hc
    rcases hc with rfl | rfl | rfl
    · exact Or.inr rfl
    · exact Or.inl (hdigit _)
    · exact Or.inl (hdigit _)

end SnapshotAnalytics.Text

import Mathlib.Logic.Function.Basic
import SnapshotAnalytics.Text.Bytes

/-!
# Texts and their bytes

A text is determined by its bytes, and texts of plain ASCII are in the order of their bytes.
-/

namespace SnapshotAnalytics.Text

theorem utf8_append (s t : List Char) : utf8 (s ++ t) = utf8 s ++ utf8 t :=
  List.flatMap_append

/-- The bytes of a text are those of the string with its characters. -/
theorem toByteArray_utf8 (s : List Char) : (utf8 s).toByteArray = (String.ofList s).toByteArray := by
  rw [String.toByteArray_ofList, List.utf8Encode, utf8]

/-- Texts are determined by their bytes. -/
theorem utf8_injective : Function.Injective utf8 := by
  intro s t h
  have hbytes : (String.ofList s).toByteArray = (String.ofList t).toByteArray := by
    rw [← toByteArray_utf8, ← toByteArray_utf8, h]
  exact String.ofList_injective (String.toByteArray_inj.mp hbytes)

/-- A character of plain ASCII has one byte. -/
theorem utf8EncodeChar_of_ascii {c : Char} (hc : c.toNat < 128) :
    String.utf8EncodeChar c = [UInt8.ofNat c.toNat] := by
  have hle : c.val.toNat ≤ 127 := Nat.le_of_lt_succ hc
  rw [String.utf8EncodeChar.eq_1, if_pos hle]
  rfl

/-- The bytes of plain ASCII are in the order of the characters. -/
theorem utf8_lt_iff_of_ascii {s t : List Char} (hs : ∀ c ∈ s, c.toNat < 128)
    (ht : ∀ c ∈ t, c.toNat < 128) : utf8 s < utf8 t ↔ s < t := by
  induction s generalizing t with
  | nil =>
    cases t with
    | nil => simp [utf8]
    | cons d t =>
      obtain ⟨hd, -⟩ := List.forall_mem_cons.mp ht
      simp [utf8, utf8EncodeChar_of_ascii hd]
  | cons c s ih =>
    cases t with
    | nil => simp [utf8]
    | cons d t =>
      obtain ⟨hc, hs⟩ := List.forall_mem_cons.mp hs
      obtain ⟨hd, ht⟩ := List.forall_mem_cons.mp ht
      -- A character of ASCII is one byte, its number, so both orders compare the first ones alike.
      have hcons {c : Char} (hc : c.toNat < 128) (s : List Char) :
          utf8 (c :: s) = UInt8.ofNat c.toNat :: utf8 s := by
        rw [utf8, List.flatMap_cons, utf8EncodeChar_of_ascii hc, ← utf8, List.singleton_append]
      have hsize (c : Char) (hc : c.toNat < 128) : c.toNat < UInt8.size := Nat.lt_trans hc (by decide)
      have hlt : UInt8.ofNat c.toNat < UInt8.ofNat d.toNat ↔ c < d :=
        UInt8.ofNat_lt_iff_lt (hsize c hc) (hsize d hd)
      have heq : UInt8.ofNat c.toNat = UInt8.ofNat d.toNat ↔ c = d := by
        rw [← UInt8.toNat_inj, UInt8.toNat_ofNat_of_lt' (hsize c hc),
          UInt8.toNat_ofNat_of_lt' (hsize d hd), Char.toNat_inj]
      rw [hcons hc, hcons hd, List.cons_lt_cons_iff, List.cons_lt_cons_iff, ih hs ht, hlt, heq]

end SnapshotAnalytics.Text

import SnapshotAnalytics.Proofs.Json.Doubles
import SnapshotAnalytics.Proofs.Json.Quoted

/-!
# Compact text stands on one line

No control character is ever written: those of a text are escaped, numbers consist of digits and a few
marks, and nothing stands between the parts of a value but punctuation. In particular there is no line
feed and no carriage return, so a line that holds a compact text holds all of it.
-/

namespace SnapshotAnalytics.Json

/-! ## §1 Texts without control characters -/

/-- There is no control character in a text. -/
def NoControls (s : List Char) : Prop :=
  ∀ c ∈ s, ¬ c.toNat < 0x20

instance (s : List Char) : Decidable (NoControls s) :=
  List.decidableBAll _ s

theorem noControls_nil : NoControls [] :=
  List.forall_mem_nil _

theorem noControls_cons {c : Char} {s : List Char} :
    NoControls (c :: s) ↔ ¬ c.toNat < 0x20 ∧ NoControls s :=
  List.forall_mem_cons

theorem noControls_append {s t : List Char} : NoControls (s ++ t) ↔ NoControls s ∧ NoControls t :=
  List.forall_mem_append

theorem NoControls.not_mem_newline {s : List Char} (h : NoControls s) : '\n' ∉ s :=
  fun hmem => h _ hmem (by decide)

theorem NoControls.not_mem_return {s : List Char} (h : NoControls s) : '\r' ∉ s :=
  fun hmem => h _ hmem (by decide)

/-! ## §2 Quoted texts and numbers -/

/-- The letter of a short escape is no control character. -/
theorem shortEscape?_control {letter : Char} (h : letter.toNat < 0x20) :
    shortEscape? letter = none := by
  have hall : ∀ n < 0x20, shortEscape? (Char.ofNat n) = none := by decide
  rw [← Char.ofNat_toNat letter]
  exact hall _ h

theorem isNumeralChar_control {c : Char} (h : c.toNat < 0x20) : Scan.isNumeralChar c = false := by
  have hall : ∀ n < 0x20, Scan.isNumeralChar (Char.ofNat n) = false := by decide
  rw [← Char.ofNat_toNat c]
  exact hall _ h

theorem WrittenAs.noControls {c : Char} {raw : List Char} (h : WrittenAs c raw) :
    NoControls raw := by
  cases h with
  | short letter hletter _ =>
    have hcontrol : ¬ letter.toNat < 0x20 := fun h => by simp [shortEscape?_control h] at hletter
    simp [noControls_cons, noControls_nil, hcontrol]
  | unicode a b _ hplain => simp [noControls_cons, noControls_nil, hplain.1.2.2, hplain.2.2.2]
  | plain hplain => simp [noControls_cons, noControls_nil, hplain.2.2]

theorem noControls_quote (s : String) : NoControls (quote s) := by
  have hescaped : NoControls (s.toList.flatMap escape) := by
    intro c hc
    obtain ⟨raw, -, hraw⟩ := List.mem_flatMap.mp hc
    exact (writtenAs_escape raw).noControls c hraw
  simp [quote, noControls_cons, noControls_append, noControls_nil, hescaped]

theorem noControls_number (n : Number) : NoControls n.text := by
  intro c hc hcontrol
  have hnumeral := Number.isNumeralChar_text n c hc
  rw [isNumeralChar_control hcontrol] at hnumeral
  exact Bool.false_ne_true hnumeral

/-! ## §3 Values -/

mutual

/-- **One line**: there is no control character in the compact text of a value. -/
theorem noControls_chars (j : Json) : NoControls j.chars := by
  match j with
  | null | bool true | bool false => rw [chars]; decide
  | number n => rw [chars]; exact noControls_number n
  | text s => rw [chars]; exact noControls_quote s
  | array [] | object [] => rw [chars]; decide
  | array (item :: items) =>
    simp [chars, noControls_cons, noControls_append, noControls_nil, noControls_chars item,
      noControls_charsOfItems items]
  | object ((key, value) :: members) =>
    simp [chars, noControls_cons, noControls_append, noControls_nil, noControls_quote key,
      noControls_chars value, noControls_charsOfMembers members]

theorem noControls_charsOfItems (items : List Json) : NoControls (charsOfItems items) := by
  match items with
  | [] => exact noControls_nil
  | item :: items =>
    simp [charsOfItems, noControls_cons, noControls_append, noControls_chars item,
      noControls_charsOfItems items]

theorem noControls_charsOfMembers (members : List (String × Json)) :
    NoControls (charsOfMembers members) := by
  match members with
  | [] => exact noControls_nil
  | (key, value) :: members =>
    simp [charsOfMembers, noControls_cons, noControls_append, noControls_quote key,
      noControls_chars value, noControls_charsOfMembers members]

end

end SnapshotAnalytics.Json

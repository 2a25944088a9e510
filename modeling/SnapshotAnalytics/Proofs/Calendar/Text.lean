import SnapshotAnalytics.Calendar.Text
import SnapshotAnalytics.Proofs.Number.Digits
import Mathlib.Algebra.Group.Nat.Defs
import Mathlib.Data.List.TakeWhile

/-!
# Reading a written date

A date is read back from its text, whether it is read as it stands or with blanks allowed around its
dashes. So a date has a text of its own, and that text is made of digits and signs.
-/

namespace SnapshotAnalytics.Date

/-! ## §1 Padded numbers -/

theorem isDigit_padded (width n : Nat) : ∀ c ∈ padded width n, c.isDigit = true := by
  intro c hc
  rcases List.mem_append.mp hc with hzero | hdigit
  · rw [List.eq_of_mem_replicate hzero]
    rfl
  · exact isDigit_toDigits n c hdigit

theorem natOfDigits_padded (width n : Nat) : natOfDigits (padded width n) = n := by
  rw [padded, natOfDigits_zeros, natOfDigits_toDigits]

theorem padded_ne_nil (width n : Nat) : padded width n ≠ [] :=
  List.append_ne_nil_of_right_ne_nil _ Nat.toDigits_ne_nil

/-- A number that fits the width takes up all of it. -/
theorem length_padded {width n : Nat} (hwidth : 0 < width) (hn : n < 10 ^ width) :
    (padded width n).length = width := by
  have hdigits : (Nat.toDigits 10 n).length ≤ width :=
    (Nat.length_toDigits_le_iff (by decide) hwidth).mpr hn
  rw [padded, List.length_append, List.length_replicate]
  omega

/-! ## §2 Reading numbers -/

theorem isBlank_of_isDigit {c : Char} (hc : c.isDigit = true) : Text.isBlank c = false := by
  have hrange : 48 ≤ c.toNat ∧ c.toNat ≤ 57 := by
    simpa [Char.isDigit, Char.le_def, UInt32.le_iff_toNat_le] using hc
  simp [Text.isBlank, Text.blankRanges]
  omega

variable {digits : List Char}

/-- Digits are read up to the first character that is none. -/
theorem takeNumber?_all (hdigits : ∀ c ∈ digits, c.isDigit = true) (hne : digits ≠ [])
    {rest : List Char} (hstop : rest.takeWhile Char.isDigit = []) :
    takeNumber? none (digits ++ rest) = some (natOfDigits digits, rest) := by
  have htake : (digits ++ rest).takeWhile Char.isDigit = digits := by
    rw [List.takeWhile_append_of_pos hdigits, hstop, List.append_nil]
  simp only [takeNumber?, htake, List.isEmpty_eq_false_iff.mpr hne, Bool.false_eq_true, if_false,
    List.drop_left]

/-- No more digits are read than were asked for, whatever follows them. -/
theorem takeNumber?_exactly (hdigits : ∀ c ∈ digits, c.isDigit = true) (hne : digits ≠ []) {n : Nat}
    (hlength : digits.length = n) (rest : List Char) :
    takeNumber? (some n) (digits ++ rest) = some (natOfDigits digits, rest) := by
  have htake : ((digits ++ rest).takeWhile Char.isDigit).take n = digits := by
    rw [List.takeWhile_append_of_pos hdigits, List.take_left' hlength]
  simp only [takeNumber?, htake, List.isEmpty_eq_false_iff.mpr hne, Bool.false_eq_true, if_false,
    List.drop_left]

/-- Nothing in front of a digit is passed over. -/
theorem trimFront_digits (hdigits : ∀ c ∈ digits, c.isDigit = true) (hne : digits ≠ [])
    (rest : List Char) : Text.trimFront (digits ++ rest) = digits ++ rest := by
  obtain ⟨c, s, rfl⟩ := List.exists_cons_of_ne_nil hne
  have hblank : Text.isBlank c = false := isBlank_of_isDigit (hdigits c (List.mem_cons_self ..))
  rw [List.cons_append, Text.trimFront, List.dropWhile_cons_of_neg (by rw [hblank]; decide)]

/-- A year of four digits is read back, whatever follows it. -/
theorem takeYear?_padded {year : Int} (h : 0 ≤ year ∧ year ≤ 9999) (rest : List Char) :
    takeYear? (padded 4 year.natAbs ++ rest) = some (year, rest) := by
  have hdigits := isDigit_padded 4 year.natAbs
  have hne := padded_ne_nil 4 year.natAbs
  have hlength : (padded 4 year.natAbs).length = 4 := length_padded (by decide) (by omega)
  have hyear : ((year.natAbs : Nat) : Int) = year := Int.natAbs_of_nonneg h.1
  -- The first character is a digit, so no sign is taken away.
  have hunsigned (c : Char) (hc : c.isDigit = false) (r : List Char) :
      padded 4 year.natAbs ++ rest ≠ c :: r := by
    intro hr
    obtain ⟨d, s, hs⟩ := List.exists_cons_of_ne_nil hne
    have hd : d.isDigit = true := hdigits d (by rw [hs]; exact List.mem_cons_self ..)
    rw [hs, List.cons_append, List.cons.injEq] at hr
    rw [hr.1, hc] at hd
    cases hd
  rw [takeYear?, trimFront_digits hdigits hne rest]
  split
  · rename_i r hr
    exact absurd hr (hunsigned '-' rfl r)
  · rename_i r hr
    exact absurd hr (hunsigned '+' rfl r)
  · rw [takeNumber?_exactly hdigits hne hlength]
    simp only [natOfDigits_padded, Option.map_some, hyear]

/-- A year is read back, with its sign or without one. -/
theorem takeYear?_yearText (year : Int) (rest : List Char) :
    takeYear? (yearText year ++ '-' :: rest) = some (year, '-' :: rest) := by
  by_cases hplain : 0 ≤ year ∧ year ≤ 9999
  · rw [yearText, if_pos hplain, takeYear?_padded hplain]
  · -- All other years have a sign, behind which digits are read as far as they go.
    have hread : takeNumber? none (padded 4 year.natAbs ++ '-' :: rest) =
        some (year.natAbs, '-' :: rest) := by
      rw [takeNumber?_all (isDigit_padded 4 year.natAbs) (padded_ne_nil 4 year.natAbs) rfl,
        natOfDigits_padded]
    rw [yearText, if_neg hplain]
    by_cases hnegative : year < 0
    · have hyear : -((year.natAbs : Nat) : Int) = year := by omega
      rw [if_pos hnegative]
      show (takeNumber? none (padded 4 year.natAbs ++ '-' :: rest)).map _ = _
      rw [hread]
      simp only [Option.map_some, hyear]
    · have hyear : ((year.natAbs : Nat) : Int) = year := by omega
      rw [if_neg hnegative]
      show (takeNumber? none (padded 4 year.natAbs ++ '-' :: rest)).map _ = _
      rw [hread]
      simp only [Option.map_some, hyear]

theorem takeTwoDigits?_padded {n : Nat} (hn : n < 100) (rest : List Char) :
    takeTwoDigits? (padded 2 n ++ rest) = some (n, rest) := by
  have hdigits := isDigit_padded 2 n
  have hne := padded_ne_nil 2 n
  rw [takeTwoDigits?, trimFront_digits hdigits hne,
    takeNumber?_exactly hdigits hne (length_padded (by decide) hn), natOfDigits_padded]

/-! ## §3 Reading dates -/

/-- No month has more than 31 days. -/
theorem day_le (d : Date) : d.day ≤ 31 := by
  have hday := d.onCalendar.2.2.2
  have hlength : Calendar.monthLength d.year d.month ≤ 31 := by
    unfold Calendar.monthLength
    split
    · split <;> omega
    · split <;> omega
  omega

/-- A day of the calendar is within its month. -/
theorem day_lt (d : Date) : d.day < 100 :=
  Nat.lt_of_le_of_lt d.day_le (by decide)

theorem month_lt (d : Date) : d.month < 100 :=
  Nat.lt_of_le_of_lt d.onCalendar.2.1.2 (by decide)

theorem of?_eq (d : Date) : of? d.year d.month d.day = some d :=
  dif_pos d.onCalendar

/-- A date is read back by whatever takes the dashes between its numbers. -/
theorem readWith?_calendarChars {between : List Char → Option (List Char)}
    {behind : List Char → List Char} (hbetween : ∀ s, between ('-' :: s) = some s)
    (hbehind : behind [] = []) (d : Date) : readWith? between behind d.calendarChars = some d := by
  have hday := takeTwoDigits?_padded d.day_lt []
  rw [List.append_nil] at hday
  simp only [readWith?, calendarChars, List.append_assoc, List.cons_append, takeYear?_yearText,
    Option.bind_eq_bind, Option.bind_some, hbetween, takeTwoDigits?_padded d.month_lt, hday, hbehind,
    List.isEmpty_nil, if_true, of?_eq]

/-- **A date is read back** from its text as it stands. -/
theorem readCalendar?_calendarChars (d : Date) : readCalendar? d.calendarChars = some d :=
  readWith?_calendarChars (fun _ => rfl) rfl d

/-- **A date is read back** from its text where blanks are allowed. -/
theorem readSpaced?_calendarChars (d : Date) : readSpaced? d.calendarChars = some d :=
  readWith?_calendarChars (fun _ => rfl) rfl d

/-- A date has a text of its own. -/
theorem text_injective : Function.Injective text := by
  intro d d' h
  have hchars : d.calendarChars = d'.calendarChars := String.ofList_injective h
  have hread := readCalendar?_calendarChars d
  rw [hchars, readCalendar?_calendarChars] at hread
  exact (Option.some.inj hread).symm

/-- The text of a date is made of digits and signs. -/
theorem mem_text {d : Date} {c : Char} (hc : c ∈ d.text.toList) :
    c.isDigit = true ∨ c = '-' ∨ c = '+' := by
  have hpadded (width n : Nat) (h : c ∈ padded width n) : c.isDigit = true :=
    isDigit_padded width n c h
  rw [text, String.toList_ofList, calendarChars, yearText] at hc
  split at hc
  · simp only [List.mem_append, List.mem_cons] at hc
    rcases hc with (h | rfl | h) | rfl | h <;> grind
  · simp only [List.mem_append, List.mem_cons] at hc
    grind

end SnapshotAnalytics.Date

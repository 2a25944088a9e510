import SnapshotAnalytics.Proofs.Table.Encoding
import SnapshotAnalytics.Proofs.Text.Bytes
import SnapshotAnalytics.Proofs.Text.Ends

/-!
# Snapshot dates through both encodings

A warehouse may give a stored date back with blanks around it, and a calendar date with a time of day
behind it; it is read all the same. The two encodings share one reader, so it does not matter in which
of them a column is declared. The epoch is what a warehouse gives for no date at all, and is never
read.
-/

namespace SnapshotAnalytics.DateEncoding

variable {d d' : Date} {front rest : List Char}

/-! ## §1 Reading among other characters -/

theorem toList_encode_ne_nil (e : DateEncoding) (h : d.HasFourDigitYear) :
    (e.encode d).toList ≠ [] := by
  intro hnil
  have hwritten := written?_encode e h
  simp [hnil, written?, takeBytes?] at hwritten

/-- What is left of a stored date that has blanks in front and anything behind. -/
theorem trim_surrounded (e : DateEncoding) (h : d.HasFourDigitYear)
    (hfront : ∀ c ∈ front, Text.isBlank c = true) (rest : List Char) :
    Text.trim (front ++ (e.encode d).toList ++ rest) =
      (e.encode d).toList ++ Text.dropEndWhile Text.isBlank rest := by
  rw [List.append_assoc, Text.trim_blanks_append hfront,
    Text.trim_append (toList_encode_ne_nil e h) (isBlank_of_mem_encode e h)]

theorem decode?_blanks (e : DateEncoding) (h : d.HasFourDigitYear) (hne : d ≠ .epoch)
    (hfront : ∀ c ∈ front, Text.isBlank c = true) (hrest : ∀ c ∈ rest, Text.isBlank c = true) :
    decode? (String.ofList (front ++ (e.encode d).toList ++ rest)) = some d := by
  have hdropped : Text.dropEndWhile Text.isBlank rest = [] := by
    rw [Text.dropEndWhile_eq, List.rdropWhile_eq_nil_iff]
    exact hrest
  rw [decode?, String.toList_ofList, trim_surrounded e h hfront, hdropped, List.append_nil,
    written?_encode e h, Option.filter_some_pos (by simpa using hne)]

/-- A calendar date is read whatever follows it: its text is too long to be taken for a compact one. -/
theorem decode?_suffix (h : d.HasFourDigitYear) (hne : d ≠ .epoch)
    (hfront : ∀ c ∈ front, Text.isBlank c = true) (rest : List Char) :
    decode? (String.ofList (front ++ (calendar.encode d).toList ++ rest)) = some d := by
  rw [decode?, String.toList_ofList, trim_surrounded calendar h hfront, encode,
    String.toList_ofList, written?_calendarChars h, Option.filter_some_pos (by simpa using hne)]

theorem decode?_ne_epoch (s : String) : decode? s ≠ some .epoch := by
  intro h
  have hne := (Option.filter_eq_some_iff.mp h).2
  simp at hne

/-! ## §2 The order of bytes -/

theorem bytes_compact_lt_iff (h : d.HasFourDigitYear) (h' : d'.HasFourDigitYear) :
    Text.bytes (compact.encode d) < Text.bytes (compact.encode d') ↔ d < d' := by
  have hascii {d : Date} (h : d.HasFourDigitYear) : ∀ c ∈ d.compactChars, c.toNat < 128 := by
    intro c hc
    have hdigit := toNat_of_isDigit (Date.isDigit_compactChars h c hc)
    omega
  rw [Text.bytes, Text.bytes, encode, encode, String.toList_ofList, String.toList_ofList,
    Text.utf8_lt_iff_of_ascii (hascii h) (hascii h'), Date.compactChars_lt_iff h h']

/-! ## §3 Faithful storage -/

/-- **Snapshot dates are stored faithfully.** A date other than the epoch is read back from its text
in either encoding, with blanks around it or, in the calendar encoding, anything behind it; the epoch
is read from no text; and compact texts are in the order of their dates, byte by byte. All of this is
for years of four digits, as other years are written with a sign. -/
theorem stored_faithfully :
    (∀ d : Date, d.HasFourDigitYear → d ≠ .epoch →
      ∀ front : List Char, (∀ c ∈ front, Text.isBlank c = true) →
        (∀ (e : DateEncoding) (back : List Char), (∀ c ∈ back, Text.isBlank c = true) →
          decode? (String.ofList (front ++ (e.encode d).toList ++ back)) = some d) ∧
        ∀ suffix : List Char,
          decode? (String.ofList (front ++ (calendar.encode d).toList ++ suffix)) = some d) ∧
    (∀ s, decode? s ≠ some .epoch) ∧
    ∀ d d' : Date, d.HasFourDigitYear → d'.HasFourDigitYear →
      (Text.bytes (compact.encode d) < Text.bytes (compact.encode d') ↔ d < d') :=
  ⟨fun _ h hne _ hfront =>
    ⟨fun e _ hback => decode?_blanks e h hne hfront hback, decode?_suffix h hne hfront⟩,
    decode?_ne_epoch, fun _ _ => bytes_compact_lt_iff⟩

/-- A leap day of the first year, and the last day that is written with four digits. -/
theorem stored_faithfully_ends :
    let first : Date := ⟨0, 2, 29, by decide⟩
    let last : Date := ⟨9999, 12, 31, by decide⟩
    decode? (String.ofList ([' ', '\t'] ++ (compact.encode first).toList ++ ['\n'])) = some first ∧
      decode? (String.ofList ([] ++ (calendar.encode last).toList ++ " 23:59:59".toList)) =
        some last ∧
      Text.bytes (compact.encode first) < Text.bytes (compact.encode last) := by
  intro first last
  obtain ⟨hread, -, horder⟩ := stored_faithfully
  have hfirst : first.HasFourDigitYear := by decide
  have hlast : last.HasFourDigitYear := by decide
  have hblank {s : List Char} (h : s.all Text.isBlank = true) : ∀ c ∈ s, Text.isBlank c = true :=
    List.all_eq_true.mp h
  refine ⟨?_, ?_, ?_⟩
  · exact (hread first hfirst (by decide) [' ', '\t'] (hblank rfl)).1 compact ['\n'] (hblank rfl)
  · exact (hread last hlast (by decide) [] (hblank rfl)).2 " 23:59:59".toList
  · exact (horder first last hfirst hlast).mpr (by decide)

/-- The year after is written with a sign, which comes before all digits. -/
example : Text.bytes (compact.encode ⟨10000, 1, 1, by decide⟩) <
    Text.bytes (compact.encode ⟨9999, 12, 31, by decide⟩) := by
  decide

end SnapshotAnalytics.DateEncoding

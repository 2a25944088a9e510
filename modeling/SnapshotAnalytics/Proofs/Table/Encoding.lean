import SnapshotAnalytics.Proofs.Calendar.Order
import SnapshotAnalytics.Table.Field

/-!
# Stored dates

Dates with years of four digits are read back from the texts that they are stored as, in either
encoding. A warehouse compares stored dates by date when they are stored as dates and as texts when
they are stored as texts; either way stored dates are in the order of the dates they stand for.
-/

namespace SnapshotAnalytics

/-! ## §1 Plain texts -/

/-- A text without blanks has none at its ends. -/
theorem Text.trim_eq_self {s : List Char} (h : ∀ c ∈ s, isBlank c = false) : trim s = s := by
  have hkept {s : List Char} (h : ∀ c ∈ s, isBlank c = false) : s.dropWhile isBlank = s := by
    rw [List.dropWhile_eq_self_iff]
    intro hlength
    simp [h _ (List.getElem_mem hlength)]
  have hreverse : ∀ c ∈ s.reverse, isBlank c = false := fun c hc => h c (List.mem_reverse.mp hc)
  rw [trim, trimFront, hkept h, dropEndWhile, hkept hreverse, List.reverse_reverse]

namespace DateEncoding

/-- Characters of one byte take up as many bytes as there are of them. -/
theorem takeBytes?_eq {s : List Char} (h : ∀ c ∈ s, c.utf8Size = 1) (rest : List Char) :
    takeBytes? s.length (s ++ rest) = some s := by
  induction s with
  | nil => simp [takeBytes?]
  | cons c s ih =>
    obtain ⟨hc, hs⟩ := List.forall_mem_cons.mp h
    simp [takeBytes?, hc, ih hs]

/-! ## §2 Reading stored dates -/

variable {d d' : Date}

theorem calendarChars_eq (h : d.HasFourDigitYear) :
    d.calendarChars =
      Date.padded 4 d.year.natAbs ++ '-' :: Date.padded 2 d.month ++ '-' :: Date.padded 2 d.day := by
  have hplain : 0 ≤ d.year ∧ d.year ≤ 9999 := h
  rw [Date.calendarChars, Date.yearText, if_pos hplain]

theorem length_calendarChars (h : d.HasFourDigitYear) : d.calendarChars.length = 10 := by
  have hyear : (Date.padded 4 d.year.natAbs).length = 4 := by
    obtain ⟨_, _⟩ := h
    exact Date.length_padded (by decide) (by omega)
  have hmonth : (Date.padded 2 d.month).length = 2 := Date.length_padded (by decide) d.month_lt
  have hday : (Date.padded 2 d.day).length = 2 := Date.length_padded (by decide) d.day_lt
  simp [calendarChars_eq h, hyear, hmonth, hday]

/-- The characters of a stored date are digits and signs, which are no blanks and take one byte. -/
theorem plain_of_mem_calendarChars {c : Char} (hc : c ∈ d.calendarChars) :
    Text.isBlank c = false ∧ c.utf8Size = 1 := by
  have htext : c ∈ d.text.toList := by rwa [Date.text, String.toList_ofList]
  rcases Date.mem_text htext with hdigit | rfl | rfl
  · have hrange := toNat_of_isDigit hdigit
    refine ⟨Date.isBlank_of_isDigit hdigit, Char.utf8Size_eq_one_iff.mpr ?_⟩
    show c.toNat ≤ 127
    omega
  · exact ⟨rfl, rfl⟩
  · exact ⟨rfl, rfl⟩

theorem readCompact?_compactChars (h : d.HasFourDigitYear) :
    Date.readCompact? d.compactChars = some d := by
  have hday := Date.takeTwoDigits?_padded d.day_lt []
  rw [List.append_nil] at hday
  simp only [Date.readCompact?, Date.readWith?, Date.compactChars_eq h, List.append_assoc,
    Date.takeYear?_padded h, Option.bind_eq_bind, Option.bind_some,
    Date.takeTwoDigits?_padded d.month_lt, hday, id_eq, List.isEmpty_nil, if_true, Date.of?_eq]

/-- A compact text is recognised by its eight digits. -/
theorem written?_compactChars (h : d.HasFourDigitYear) : written? d.compactChars = some d := by
  have hdigits : d.compactChars.all Char.isDigit = true :=
    List.all_eq_true.mpr (Date.isDigit_compactChars h)
  have hcompact : (d.compactChars.length = 8 && d.compactChars.all Char.isDigit) = true := by
    simp [Date.length_compactChars h, hdigits]
  rw [written?, if_pos hcompact, readCompact?_compactChars h]

/-- Any other text is read up to its tenth byte, so a date may be followed by a time of day. -/
theorem written?_calendarChars (h : d.HasFourDigitYear) (rest : List Char) :
    written? (d.calendarChars ++ rest) = some d := by
  have hlength : (d.calendarChars ++ rest).length ≠ 8 := by
    rw [List.length_append, length_calendarChars h]
    omega
  have hlong : ¬ ((d.calendarChars ++ rest).length = 8 &&
      (d.calendarChars ++ rest).all Char.isDigit) = true := by
    rw [Bool.and_eq_true, decide_eq_true_eq]
    exact fun hboth => hlength hboth.1
  have htake := takeBytes?_eq (fun c hc => (plain_of_mem_calendarChars (d := d) hc).2) rest
  rw [length_calendarChars h] at htake
  rw [written?, if_neg hlong, htake, Option.bind_some, Date.readCalendar?_calendarChars]

theorem isBlank_of_mem_encode (e : DateEncoding) (h : d.HasFourDigitYear) :
    ∀ c ∈ (e.encode d).toList, Text.isBlank c = false := by
  intro c hc
  cases e with
  | calendar =>
    rw [encode, String.toList_ofList] at hc
    exact (plain_of_mem_calendarChars hc).1
  | compact =>
    rw [encode, String.toList_ofList] at hc
    exact Date.isBlank_of_isDigit (Date.isDigit_compactChars h c hc)

theorem written?_encode (e : DateEncoding) (h : d.HasFourDigitYear) :
    written? (e.encode d).toList = some d := by
  cases e with
  | calendar =>
    have hwritten := written?_calendarChars h []
    rw [List.append_nil] at hwritten
    rw [encode, String.toList_ofList, hwritten]
  | compact => rw [encode, String.toList_ofList, written?_compactChars h]

/-- **A stored date is read back**, in either encoding, unless it is the epoch. -/
theorem decode?_encode (e : DateEncoding) (h : d.HasFourDigitYear) :
    decode? (e.encode d) = (some d).filter (· ≠ .epoch) := by
  rw [decode?, Text.trim_eq_self (isBlank_of_mem_encode e h), written?_encode e h]

/-! ## §3 Comparing stored dates -/

/-- How stored dates are compared: by date when they are stored as dates, else as texts. -/
def Precedes (e : DateEncoding) (s s' : String) : Prop :=
  match e with
  | calendar =>
    ((Date.readCalendar? s.toList).any fun d =>
      (Date.readCalendar? s'.toList).any fun d' => decide (d ≤ d')) = true
  | compact => s ≤ s'

instance (e : DateEncoding) (s s' : String) : Decidable (e.Precedes s s') :=
  match e with
  | calendar => inferInstanceAs (Decidable (_ = true))
  | compact => inferInstanceAs (Decidable (s ≤ s'))

/-- **Stored dates are in the order of the dates they stand for**, in either encoding. -/
theorem precedes_encode_iff (e : DateEncoding) (h : d.HasFourDigitYear) (h' : d'.HasFourDigitYear) :
    e.Precedes (e.encode d) (e.encode d') ↔ d ≤ d' := by
  cases e with
  | calendar =>
    simp [Precedes, encode, Date.readCalendar?_calendarChars]
  | compact =>
    have hlt : String.ofList d'.compactChars < String.ofList d.compactChars ↔ d' < d := by
      rw [String.lt_iff_toList_lt, String.toList_ofList, String.toList_ofList,
        Date.compactChars_lt_iff h' h]
    show String.ofList d.compactChars ≤ String.ofList d'.compactChars ↔ _
    rw [← not_lt, hlt, Date.not_lt]

end DateEncoding

end SnapshotAnalytics

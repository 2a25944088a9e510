import SnapshotAnalytics.Proofs.Calendar.DayNumbers

/-!
# Periods of the calendar

A period reaches back a number of days or a number of months. Days are counted one by one; months are
counted from month to month, and the day of the month stays the same or is the last day of a shorter
month. The day one period before is found whenever the calendar reaches back to it, it is earlier, and
of two days the earlier one never leads to a later day.
-/

namespace SnapshotAnalytics

open Calendar

theorem Calendar.monthLength_pos (year : Int) (month : Nat) : 1 ≤ monthLength year month := by
  unfold monthLength
  split
  · split <;> omega
  · split <;> omega

namespace Date

variable {d d' : Date} {n : Nat}

theorem of?_eq_none_iff {year : Int} {month day : Nat} :
    of? year month day = none ↔ ¬ Calendar.Exists year month day :=
  dite_eq_right_iff.trans (forall_congr' fun _ => iff_false_intro (Option.some_ne_none _))

/-! ## §1 Steps by days -/

theorem dayNumber_of_yesterday? (h : d.yesterday? = some d') :
    d'.dayNumber = d.dayNumber - 1 := by
  have hexists := d.onCalendar.2
  unfold yesterday? at h
  unfold dayNumber
  -- A day is passed within a month, at the end of a month, or at the end of a year.
  split at h
  · obtain ⟨hyear, hmonth, hday⟩ := of?_eq_some h
    rw [hyear, hmonth, hday]
    omega
  · split at h
    · obtain ⟨hyear, hmonth, hday⟩ := of?_eq_some h
      have hlength := daysBeforeMonth_succ d.year (show 1 ≤ d.month - 1 by omega)
      rw [Nat.sub_add_cancel d.onCalendar.2.1.1] at hlength
      rw [hyear, hmonth, hday]
      omega
    · obtain ⟨hyear, hmonth, hday⟩ := of?_eq_some h
      have hyears := daysBeforeYear_succ (d.year - 1)
      have hdecember : daysBeforeMonth (d.year - 1) 13 = daysBeforeMonth (d.year - 1) 12 + 31 :=
        daysBeforeMonth_succ (d.year - 1) (by decide)
      have hjanuary : daysBeforeMonth d.year d.month = 0 := by
        rw [show d.month = 1 by omega]
        rfl
      rw [Int.sub_add_cancel] at hyears
      rw [hyear, hmonth, hday, hjanuary]
      omega

/-- Only the first day of the calendar has no day before. -/
theorem yesterday?_eq_none_iff : d.yesterday? = none ↔ d = first := by
  have hyear := d.onCalendar.1
  have hexists := d.onCalendar.2
  have hlength := monthLength_pos d.year (d.month - 1)
  have hdecember : monthLength (d.year - 1) 12 = 31 := rfl
  have hfirst : d = first ↔ d.year = firstYear ∧ d.month = 1 ∧ d.day = 1 := by
    constructor
    · rintro rfl
      exact ⟨rfl, rfl, rfl⟩
    · rintro ⟨hyear, hmonth, hday⟩
      exact rank_injective (by simp only [rank, hyear, hmonth, hday, first])
  rw [hfirst]
  -- The day before is the last of the year before, the last of the month before or in this month.
  unfold yesterday?
  split
  · simp only [of?_eq_none_iff, Calendar.Exists]
    omega
  · split
    · simp only [of?_eq_none_iff, Calendar.Exists]
      omega
    · simp only [of?_eq_none_iff, Calendar.Exists]
      omega

/-- The calendar does not reach back to a day whose number is less than that of its first day. -/
theorem daysBefore?_eq_none_iff :
    daysBefore? n d = none ↔ d.dayNumber - n < first.dayNumber := by
  induction n generalizing d with
  | zero =>
    have hfirst := dayNumber_le_iff.mpr d.first_le
    simp only [daysBefore?, reduceCtorEq, false_iff]
    omega
  | succ n ih =>
    rw [daysBefore?]
    cases hyesterday : d.yesterday? with
    | none =>
      rw [yesterday?_eq_none_iff] at hyesterday
      simp only [Option.bind_none, true_iff, hyesterday]
      omega
    | some yesterday =>
      have hnumber := dayNumber_of_yesterday? hyesterday
      rw [Option.bind_some, ih, hnumber]
      omega

theorem dayNumber_of_daysBefore? (h : daysBefore? n d = some d') :
    d'.dayNumber = d.dayNumber - n := by
  induction n generalizing d with
  | zero =>
    cases h
    omega
  | succ n ih =>
    obtain ⟨yesterday, hyesterday, hrest⟩ := Option.bind_eq_some_iff.mp h
    have hnumber := dayNumber_of_yesterday? hyesterday
    rw [ih hrest, hnumber]
    omega

/-- **The day so many days before** is the one whose number is that much less. -/
theorem daysBefore?_eq_some_iff :
    daysBefore? n d = some d' ↔ d'.dayNumber = d.dayNumber - n := by
  constructor
  · exact dayNumber_of_daysBefore?
  · intro hnumber
    cases h : daysBefore? n d with
    | none =>
      have hfirst := dayNumber_le_iff.mpr d'.first_le
      rw [daysBefore?_eq_none_iff] at h
      omega
    | some found =>
      rw [dayNumber_injective ((dayNumber_of_daysBefore? h).trans hnumber.symm)]

/-! ## §2 Steps by months -/

/-- The same day of the month, or the last day of a month that is too short for it. -/
def IsSameDayIn (d d' : Date) : Prop :=
  d'.day = min d.day (monthLength d'.year d'.month)

theorem eq_of_monthNumber_eq (h : d.monthNumber = d'.monthNumber) :
    d.year = d'.year ∧ d.month = d'.month := by
  have hmonth := d.onCalendar.2.1
  have hmonth' := d'.onCalendar.2.1
  unfold monthNumber at h
  omega

theorem monthNumber_mono (h : d ≤ d') : d.monthNumber ≤ d'.monthNumber := by
  have hrank : d.rank ≤ d'.rank := h
  have hday := d.onCalendar.2.2.1
  have hday' := d'.day_le
  unfold rank at hrank
  unfold monthNumber
  omega

/-- Days are in the order of their months, and within a month in the order of their days. -/
theorem le_of_month (h : d.monthNumber < d'.monthNumber ∨
    d.monthNumber = d'.monthNumber ∧ d.day ≤ d'.day) : d ≤ d' := by
  have hday := d.day_le
  have hday' := d'.onCalendar.2.2.1
  show d.rank ≤ d'.rank
  unfold rank
  unfold monthNumber at h
  omega

theorem monthsBefore?_eq_none_iff :
    monthsBefore? n d = none ↔ d.monthNumber - n < first.monthNumber := by
  have hmonth := d.onCalendar.2.1
  have hyear := d.onCalendar.1
  have hday := d.onCalendar.2.2.1
  have hlength := monthLength_pos ((d.year * 12 + (d.month - 1 : Nat) - n) / 12)
    (((d.year * 12 + (d.month - 1 : Nat) - n) % 12).toNat + 1)
  simp only [monthsBefore?, of?_eq_none_iff, Calendar.Exists, monthNumber, first, firstYear, lastYear] at *
  omega

theorem monthsBefore?_eq_some_iff :
    monthsBefore? n d = some d' ↔ d'.monthNumber = d.monthNumber - n ∧ d.IsSameDayIn d' := by
  constructor
  · intro h
    obtain ⟨hyear, hmonth, hday⟩ := of?_eq_some h
    refine ⟨(monthsBefore?_spec h).1, ?_⟩
    rw [IsSameDayIn, hyear, hmonth, hday]
  · rintro ⟨hnumber, hday⟩
    cases h : monthsBefore? n d with
    | none =>
      -- The month of a day is on the calendar, so a day is found in it.
      have hfirst := monthNumber_mono d'.first_le
      rw [monthsBefore?_eq_none_iff] at h
      omega
    | some found =>
      obtain ⟨hyear, hmonth, hfound⟩ := of?_eq_some h
      have hsame := (monthsBefore?_spec h).1
      -- In one month there is only one day with that number.
      have hparts : found.year = d'.year ∧ found.month = d'.month :=
        eq_of_monthNumber_eq (hsame.trans hnumber.symm)
      rw [IsSameDayIn, ← hparts.1, ← hparts.2, hyear, hmonth, ← hfound] at hday
      exact congrArg some (rank_injective (by rw [rank, rank, hparts.1, hparts.2, hday]))

end Date

/-! ## §3 Spans -/

/-- A number of days or of months. -/
inductive Span where
  | days (n : Nat)
  | months (n : Nat)

namespace Span

/-- A day lies one span before another one. -/
def LeadsTo (d d' : Date) : Span → Prop
  | days n => d'.dayNumber = d.dayNumber - n
  | months n => d'.monthNumber = d.monthNumber - n ∧ d.IsSameDayIn d'

/-- One span before a day there is no calendar. -/
def LeavesCalendar (d : Date) : Span → Prop
  | days n => d.dayNumber - n < Date.first.dayNumber
  | months n => d.monthNumber - n < Date.first.monthNumber

/-- Of two days the earlier one does not lead to a later day. Several days can lead to the last day of
a short month, but none of them to a day behind it. -/
theorem LeadsTo.mono {span : Span} {d later d' later' : Date} (h : span.LeadsTo d d')
    (h' : span.LeadsTo later later') (hle : d ≤ later) : d' ≤ later' := by
  cases span with
  | days n =>
    have hnumber := Date.dayNumber_le_iff.mpr hle
    rw [← Date.dayNumber_le_iff, h, h']
    omega
  | months n =>
    obtain ⟨hmonth, hday⟩ := h
    obtain ⟨hmonth', hday'⟩ := h'
    have hnumber := Date.monthNumber_mono hle
    apply Date.le_of_month
    -- Months that are apart stay apart; days of one month are cut at the same length.
    rcases Int.lt_or_eq_of_le hnumber with hless | hsame
    · left
      omega
    · right
      have htarget : d'.monthNumber = later'.monthNumber := by omega
      obtain ⟨hyear, hmonth⟩ := Date.eq_of_monthNumber_eq htarget
      refine ⟨htarget, ?_⟩
      have hrank : d.rank ≤ later.rank := hle
      unfold Date.rank at hrank
      unfold Date.monthNumber at hsame
      rw [Date.IsSameDayIn] at hday hday'
      rw [hday, hday', hyear, hmonth]
      omega

end Span

/-! ## §4 Periods -/

namespace ComparePeriod

/-- How far a period reaches back. -/
def span : ComparePeriod → Span
  | previousDay => .days 1
  | previousWeek => .days 7
  | previousMonth => .months 1
  | previousQuarter => .months 3
  | previousYear => .months 12

variable {period : ComparePeriod} {d d' : Date}

theorem shift?_eq_some_iff : period.shift? d = some d' ↔ period.span.LeadsTo d d' := by
  cases period with
  | previousDay | previousWeek => exact Date.daysBefore?_eq_some_iff
  | previousMonth | previousQuarter | previousYear => exact Date.monthsBefore?_eq_some_iff

theorem shift?_eq_none_iff : period.shift? d = none ↔ period.span.LeavesCalendar d := by
  cases period with
  | previousDay | previousWeek => exact Date.daysBefore?_eq_none_iff
  | previousMonth | previousQuarter | previousYear => exact Date.monthsBefore?_eq_none_iff

theorem shift_eq_ok_iff : period.shift d = .ok d' ↔ period.span.LeadsTo d d' := by
  rw [← shift?_eq_some_iff, shift]
  cases period.shift? d <;> simp

/-- **Periods follow the calendar**: one period before a day there is an earlier day, one or seven days
or so many months before, unless the calendar does not reach back that far; and of two days the earlier
one does not lead to a later day. -/
theorem shift_calendar (period : ComparePeriod) (d : Date) :
    ((∃ d', period.shift d = .ok d' ∧ d' < d ∧ period.span.LeadsTo d d' ∧
        ¬ period.span.LeavesCalendar d) ∨
      ∃ e, period.shift d = .error e ∧ e.code = "OUT_OF_RANGE" ∧
        period.span.LeavesCalendar d) ∧
    ∀ later d' later', d ≤ later → period.shift d = .ok d' → period.shift later = .ok later' →
      d' ≤ later' := by
  constructor
  · cases hshift : period.shift? d with
    | some d' =>
      have hleaves : ¬ period.span.LeavesCalendar d := by
        rw [← shift?_eq_none_iff, hshift]
        exact Option.some_ne_none d'
      have hok : period.shift d = .ok d' := shift_eq_ok_iff.mpr (shift?_eq_some_iff.mp hshift)
      exact Or.inl ⟨d', hok, shift_lt hok, shift?_eq_some_iff.mp hshift, hleaves⟩
    | none =>
      have herror : period.shift d = .error (.beforeCalendar period.name d.text) := by
        rw [shift, hshift]
      exact Or.inr ⟨_, herror, rfl, shift?_eq_none_iff.mp hshift⟩
  · intro later d' later' hle hd hlater
    exact (shift_eq_ok_iff.mp hd).mono (shift_eq_ok_iff.mp hlater) hle

/-! A month before the last day of March 2020 is the leap day of that year, and a month before that is a
day in January. -/

def marchEnd : Date := ⟨2020, 3, 31, by decide⟩

def leapDay : Date := ⟨2020, 2, 29, by decide⟩

def monthBeforeLeapDay : Date := ⟨2020, 1, 29, by decide⟩

theorem shift_calendar_leapDay :
    leapDay ≤ marchEnd ∧ previousMonth.shift leapDay = .ok monthBeforeLeapDay ∧
      previousMonth.shift marchEnd = .ok leapDay ∧ monthBeforeLeapDay ≤ leapDay := by
  have hle : leapDay ≤ marchEnd := by decide
  have hleap : previousMonth.shift leapDay = .ok monthBeforeLeapDay := by decide
  have hmarch : previousMonth.shift marchEnd = .ok leapDay := by decide
  exact ⟨hle, hleap, hmarch,
    (shift_calendar previousMonth leapDay).2 marchEnd _ _ hle hleap hmarch⟩

end ComparePeriod

end SnapshotAnalytics

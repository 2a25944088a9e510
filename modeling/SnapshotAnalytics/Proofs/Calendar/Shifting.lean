import SnapshotAnalytics.Proofs.Calendar.Order
import SnapshotAnalytics.Proofs.Data.Checks
import SnapshotAnalytics.Report.Window

/-!
# Earlier days

A step back by days or months leads to an earlier day whenever the calendar reaches back to one: a
month earlier the day of the month stays the same or becomes less. So the day that a report is compared
with is never after the day of the report.
-/

namespace SnapshotAnalytics

namespace Date

variable {d d' : Date} {n : Nat}

/-! ## §1 Days -/

theorem of?_eq_some {year : Int} {month day : Nat} (h : of? year month day = some d) :
    d.year = year ∧ d.month = month ∧ d.day = day := by
  unfold of? at h
  split at h
  · cases h
    exact ⟨rfl, rfl, rfl⟩
  · cases h

theorem yesterday?_lt (h : d.yesterday? = some d') : d' < d := by
  have hday := d.day_le
  have hday' := d'.day_le
  have hexists := d.onCalendar.2
  have hexists' := d'.onCalendar.2
  show d'.rank < d.rank
  unfold yesterday? at h
  unfold rank
  -- Within a month the day gets less, and at the start of one the month does.
  split at h
  · obtain ⟨hyear, hmonth, hsame⟩ := of?_eq_some h
    omega
  · split at h
    · obtain ⟨hyear, hmonth, hsame⟩ := of?_eq_some h
      omega
    · obtain ⟨hyear, hmonth, hsame⟩ := of?_eq_some h
      omega

theorem daysBefore?_le (h : daysBefore? n d = some d') : d' ≤ d := by
  induction n generalizing d with
  | zero =>
    cases h
    exact le_refl _
  | succ n ih =>
    obtain ⟨yesterday, hyesterday, hrest⟩ := Option.bind_eq_some_iff.mp h
    exact le_trans (ih hrest) (Int.le_of_lt (yesterday?_lt hyesterday))

theorem daysBefore?_lt (h : daysBefore? (n + 1) d = some d') : d' < d := by
  obtain ⟨yesterday, hyesterday, hrest⟩ := Option.bind_eq_some_iff.mp h
  exact Int.lt_of_le_of_lt (daysBefore?_le hrest) (yesterday?_lt hyesterday)

/-! ## §2 Months -/

/-- Months are counted down, whatever years they are in, and the day of the month does not grow. -/
theorem monthsBefore?_spec (h : monthsBefore? n d = some d') :
    d'.year * 12 + d'.month = d.year * 12 + d.month - n ∧ d'.day ≤ d.day := by
  have hmonth := d.onCalendar.2.1
  obtain ⟨hyear, hmonth', hday⟩ := of?_eq_some h
  rw [hyear, hmonth', hday]
  omega

theorem monthsBefore?_lt (hn : 0 < n) (h : monthsBefore? n d = some d') : d' < d := by
  obtain ⟨hmonths, hday⟩ := monthsBefore?_spec h
  show d'.rank < d.rank
  unfold rank
  omega

end Date

/-! ## §3 Periods -/

namespace ComparePeriod

variable {period : ComparePeriod} {d asOf target : Date}

/-- One period before is earlier. -/
theorem shift?_lt (h : period.shift? d = some target) : target < d := by
  cases period with
  | previousDay | previousWeek => exact Date.daysBefore?_lt h
  | previousMonth | previousQuarter | previousYear => exact Date.monthsBefore?_lt (by decide) h

theorem shift_lt (h : period.shift d = .ok target) : target < d := by
  unfold shift at h
  split at h
  · rename_i shifted hshifted
    cases h
    exact shift?_lt hshifted
  · cases h

/-- **A day to compare with is not later**, whether it is given or one period before. -/
theorem target_le {period : Option ComparePeriod} {fixed : Option Date}
    (h : ComparePeriod.target asOf period fixed = .ok target) : target ≤ asOf := by
  unfold ComparePeriod.target at h
  split at h
  · split at h
    · cases h
    · rename_i hlater
      cases h
      exact Date.not_lt.mp hlater
  · exact Int.le_of_lt (shift_lt h)

end ComparePeriod

theorem Window.targets_le {w : Window} {today asOf target : Date}
    (h : w.targets today = .ok (asOf, target)) : target ≤ asOf := by
  obtain ⟨shifted, hshifted, hpair⟩ := Checks.bind_eq_ok.mp h
  cases hpair
  exact ComparePeriod.target_le hshifted

end SnapshotAnalytics

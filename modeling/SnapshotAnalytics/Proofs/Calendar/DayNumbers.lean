import SnapshotAnalytics.Proofs.Calendar.Shifting
import Mathlib.Algebra.BigOperators.Intervals
import Mathlib.Algebra.Order.BigOperators.Group.Finset

/-!
# Numbers of days and months

Every day of the calendar has a number, counted from the first day of the year one, and every month
has a number, counted from the year zero. Numbers are in the order of the days, so a step back by days
takes that many off the number of the day, a step back by months takes that many off the number of the
month, and the calendar does not reach back to a day or a month whose number is less than its first.
-/

namespace SnapshotAnalytics

/-! ## §1 Lengths of years and months -/

namespace Calendar

/-- The days of the years from the year one up to the given one, which is not counted. -/
def daysBeforeYear (year : Int) : Int :=
  365 * (year - 1) + (year - 1) / 4 - (year - 1) / 100 + (year - 1) / 400

/-- The days of a year in the months before the given one. -/
def daysBeforeMonth (year : Int) (month : Nat) : Nat :=
  ∑ m ∈ Finset.Ico 1 month, monthLength year m

theorem daysBeforeMonth_succ (year : Int) {month : Nat} (hmonth : 1 ≤ month) :
    daysBeforeMonth year (month + 1) = daysBeforeMonth year month + monthLength year month :=
  Finset.sum_Ico_succ_top hmonth _

theorem daysBeforeMonth_mono (year : Int) : Monotone (daysBeforeMonth year) := fun _ _ h =>
  Finset.sum_le_sum_of_subset (Finset.Ico_subset_Ico_right h)

/-- Behind December the whole year is over, which has a day more if it is a leap year. -/
theorem daysBeforeMonth_thirteen (year : Int) :
    daysBeforeMonth year 13 = if isLeap year then 366 else 365 := by
  cases hleap : isLeap year <;> simp [daysBeforeMonth, Finset.sum_Ico_eq_sum_range,
    Finset.sum_range_succ, monthLength, hleap]

theorem daysBeforeYear_succ (year : Int) :
    daysBeforeYear (year + 1) = daysBeforeYear year + daysBeforeMonth year 13 := by
  rw [daysBeforeMonth_thirteen]
  unfold daysBeforeYear
  split
  · rename_i hleap
    simp only [isLeap, Bool.and_eq_true, Bool.or_eq_true, beq_iff_eq, bne_iff_ne] at hleap
    omega
  · rename_i hleap
    simp only [isLeap, Bool.and_eq_true, Bool.or_eq_true, beq_iff_eq, bne_iff_ne] at hleap
    omega

theorem daysBeforeYear_mono {year year' : Int} (h : year ≤ year') :
    daysBeforeYear year ≤ daysBeforeYear year' := by
  induction year', h using Int.leInduction with
  | base => exact Int.le_refl _
  | succ year' _ ih =>
    rw [daysBeforeYear_succ]
    omega

end Calendar

namespace Date

open Calendar

variable {d d' : Date} {n : Nat}

/-! ## §2 Numbers in order -/

/-- The number of a day, counted from the first day of the year one. -/
def dayNumber (d : Date) : Int :=
  daysBeforeYear d.year + daysBeforeMonth d.year d.month + d.day

example : epoch.dayNumber = 719163 := by decide

/-- The number of the month of a day, counted from the year zero. -/
def monthNumber (d : Date) : Int :=
  d.year * 12 + d.month

/-- The first day of the calendar. -/
def first : Date :=
  ⟨firstYear, 1, 1, by decide⟩

/-- An earlier day is in an earlier year, in an earlier month of its year, or earlier in its month. -/
theorem lt_cases (h : d < d') : d.year < d'.year ∨ d.year = d'.year ∧ d.month < d'.month ∨
    d.year = d'.year ∧ d.month = d'.month ∧ d.day < d'.day := by
  have hrank : d.rank < d'.rank := h
  have hday := d.day_le
  have hday' := d'.day_le
  have hexists := d.onCalendar.2
  have hexists' := d'.onCalendar.2
  unfold rank at hrank
  omega

/-- A day is not behind the end of its month, nor the end of a later month of its year. -/
theorem dayNumber_le_of_month (d : Date) {month : Nat} (hmonth : d.month + 1 ≤ month) :
    d.dayNumber ≤ daysBeforeYear d.year + daysBeforeMonth d.year month := by
  have hlength := daysBeforeMonth_succ d.year d.onCalendar.2.1.1
  have hmono := daysBeforeMonth_mono d.year hmonth
  have hday := d.onCalendar.2.2.2
  unfold dayNumber
  omega

theorem dayNumber_le_of_year (d : Date) {year : Int} (hyear : d.year + 1 ≤ year) :
    d.dayNumber ≤ daysBeforeYear year := by
  have hmonth : d.month + 1 ≤ 13 := Nat.succ_le_succ d.onCalendar.2.1.2
  have hend := d.dayNumber_le_of_month hmonth
  have hmono := daysBeforeYear_mono hyear
  rw [daysBeforeYear_succ] at hmono
  omega

/-- **Days are numbered in their order.** -/
theorem dayNumber_strictMono (h : d < d') : d.dayNumber < d'.dayNumber := by
  have hday := d'.onCalendar.2.2.1
  rcases lt_cases h with hyear | ⟨hyear, hmonth⟩ | ⟨hyear, hmonth, hless⟩
  · have hend := d.dayNumber_le_of_year hyear
    unfold dayNumber at hend ⊢
    omega
  · have hend := d.dayNumber_le_of_month hmonth
    unfold dayNumber at hend ⊢
    rw [← hyear]
    omega
  · unfold dayNumber
    rw [hyear, hmonth]
    omega

theorem dayNumber_le_iff : d.dayNumber ≤ d'.dayNumber ↔ d ≤ d' := by
  constructor
  · intro h
    rcases le_total d d' with hle | hle
    · exact hle
    · by_contra hlt
      exact absurd (dayNumber_strictMono (Int.not_le.mp hlt)) (Int.not_lt.mpr h)
  · intro h
    by_contra hlt
    rcases Int.lt_or_eq_of_le h with hless | hsame
    · exact hlt (Int.le_of_lt (dayNumber_strictMono hless))
    · rw [rank_injective hsame] at hlt
      exact hlt (Int.le_refl _)

theorem dayNumber_injective : Function.Injective dayNumber := fun _ _ h =>
  le_antisymm (dayNumber_le_iff.mp (Int.le_of_eq h)) (dayNumber_le_iff.mp (Int.le_of_eq h.symm))

theorem first_le (d : Date) : first ≤ d := by
  have hyear := d.onCalendar.1.1
  have hexists := d.onCalendar.2
  show first.rank ≤ d.rank
  unfold rank first
  simp only
  omega

end Date

end SnapshotAnalytics

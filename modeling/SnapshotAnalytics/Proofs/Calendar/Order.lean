import SnapshotAnalytics.Proofs.Calendar.Text
import Mathlib.Data.List.Induction
import Mathlib.Data.String.Basic
import Mathlib.Tactic.Ring

/-!
# The order of dates and of their compact texts

Dates are ordered by their ranks, and no two dates share one. As long as years have four digits,
compact texts have the same length, so they are in the order of the numbers that their digits stand
for, which is the order of the dates.
-/

namespace SnapshotAnalytics

/-! ## §1 Digits in order -/

theorem natOfDigits_singleton (c : Char) : natOfDigits [c] = c.toNat - '0'.toNat := by
  simp [natOfDigits]

theorem natOfDigits_append_singleton (s : List Char) (c : Char) :
    natOfDigits (s ++ [c]) = 10 * natOfDigits s + (c.toNat - '0'.toNat) := by
  simp [natOfDigits, List.foldl_append]

theorem natOfDigits_append (s t : List Char) :
    natOfDigits (s ++ t) = natOfDigits s * 10 ^ t.length + natOfDigits t := by
  induction t using List.reverseRecOn with
  | nil => simp [natOfDigits]
  | append_singleton t c ih =>
    rw [← List.append_assoc, natOfDigits_append_singleton, natOfDigits_append_singleton, ih,
      List.length_append, List.length_singleton]
    ring

/-- A digit stands for a number below ten. -/
theorem toNat_of_isDigit {c : Char} (hc : c.isDigit = true) : 48 ≤ c.toNat ∧ c.toNat ≤ 57 := by
  simpa [Char.isDigit, Char.le_def, UInt32.le_iff_toNat_le] using hc

theorem natOfDigits_lt {s : List Char} (hs : ∀ c ∈ s, c.isDigit = true) :
    natOfDigits s < 10 ^ s.length := by
  induction s using List.reverseRecOn with
  | nil => simp [natOfDigits]
  | append_singleton s c ih =>
    have hc := toNat_of_isDigit (hs c (by simp))
    have hlt := ih fun c hc => hs c (by simp [hc])
    have hzero : '0'.toNat = 48 := rfl
    rw [natOfDigits_append_singleton, List.length_append, List.length_singleton, pow_succ]
    omega

/-- Digits of the same number are in the order of the numbers that they stand for. -/
theorem digits_lt_iff {s t : List Char} (hs : ∀ c ∈ s, c.isDigit = true)
    (ht : ∀ c ∈ t, c.isDigit = true) (hlength : s.length = t.length) :
    s < t ↔ natOfDigits s < natOfDigits t := by
  induction s generalizing t with
  | nil =>
    obtain rfl := List.eq_nil_of_length_eq_zero hlength.symm
    simp
  | cons c s ih =>
    cases t with
    | nil => cases hlength
    | cons d t =>
      obtain ⟨hc, hs⟩ := List.forall_mem_cons.mp hs
      obtain ⟨hd, ht⟩ := List.forall_mem_cons.mp ht
      have hlength : s.length = t.length := Nat.succ.inj hlength
      have hsmall := natOfDigits_lt hs
      have hsmall' := natOfDigits_lt ht
      -- The first digit is weighed by the number of digits behind it.
      have hfirst (c : Char) (s : List Char) :
          natOfDigits (c :: s) = (c.toNat - 48) * 10 ^ s.length + natOfDigits s := by
        rw [← List.singleton_append, natOfDigits_append, natOfDigits_singleton]
        rfl
      rw [List.cons_lt_cons_iff, ih hs ht hlength, hfirst, hfirst, ← hlength]
      rw [← hlength] at hsmall'
      have hc := toNat_of_isDigit hc
      have hd := toNat_of_isDigit hd
      -- What stands behind the first digits weighs less than one of them.
      rcases Nat.lt_trichotomy c.toNat d.toNat with hlt | heq | hgt
      · have hweight : (c.toNat - 48 + 1) * 10 ^ s.length ≤ (d.toNat - 48) * 10 ^ s.length :=
          Nat.mul_le_mul_right _ (by omega)
        rw [Nat.add_one_mul] at hweight
        have hcd : c < d := hlt
        simp only [hcd, true_or, true_iff]
        omega
      · have hcd : c = d := Char.toNat_inj.mp heq
        simp [hcd]
      · have hweight : (d.toNat - 48 + 1) * 10 ^ s.length ≤ (c.toNat - 48) * 10 ^ s.length :=
          Nat.mul_le_mul_right _ (by omega)
        rw [Nat.add_one_mul] at hweight
        have hcd : ¬ c < d := Nat.lt_asymm hgt
        have hne : c ≠ d := fun h => absurd (congrArg Char.toNat h) (Nat.ne_of_gt hgt)
        simp only [hcd, hne, false_and, or_self, false_iff]
        omega

namespace Date

/-! ## §2 Dates in order -/

variable {d d' : Date}

theorem rank_injective : Function.Injective rank := by
  intro d d' h
  have hday := d.day_le
  have hday' := d'.day_le
  have hmonth := d.onCalendar.2.1
  have hmonth' := d'.onCalendar.2.1
  -- Days fill less than 32 and months are 1 to 12, so the parts of a rank can be told apart.
  have hparts : d.year = d'.year ∧ d.month = d'.month ∧ d.day = d'.day := by
    unfold rank at h
    omega
  cases d
  cases d'
  obtain ⟨rfl, rfl, rfl⟩ := hparts
  rfl

theorem le_refl (d : Date) : d ≤ d :=
  Int.le_refl d.rank

theorem le_trans {d'' : Date} (h : d ≤ d') (h' : d' ≤ d'') : d ≤ d'' :=
  Int.le_trans h h'

theorem le_antisymm (h : d ≤ d') (h' : d' ≤ d) : d = d' :=
  rank_injective (Int.le_antisymm h h')

theorem le_total (d d' : Date) : d ≤ d' ∨ d' ≤ d :=
  Int.le_total d.rank d'.rank

theorem not_lt : ¬ d < d' ↔ d' ≤ d :=
  Int.not_lt

instance : Std.TransOrd Date :=
  inferInstanceAs (Std.TransCmp (compareOn rank))

instance : Std.LawfulEqOrd Date where
  eq_of_compare h := rank_injective (Std.LawfulEqOrd.eq_of_compare h)

theorem compare_eq_lt : compare d d' = .lt ↔ d < d' :=
  Int.compare_eq_lt

/-! ## §3 Compact texts in order -/

/-- A date whose year is written with four digits and no sign. -/
def HasFourDigitYear (d : Date) : Prop :=
  0 ≤ d.year ∧ d.year ≤ 9999

instance (d : Date) : Decidable d.HasFourDigitYear :=
  inferInstanceAs (Decidable (_ ∧ _))

theorem compactChars_eq (h : d.HasFourDigitYear) :
    d.compactChars = padded 4 d.year.natAbs ++ padded 2 d.month ++ padded 2 d.day := by
  have hplain : 0 ≤ d.year ∧ d.year ≤ 9999 := h
  rw [compactChars, yearText, if_pos hplain]

theorem isDigit_compactChars (h : d.HasFourDigitYear) : ∀ c ∈ d.compactChars, c.isDigit = true := by
  intro c hc
  rw [compactChars_eq h, List.mem_append, List.mem_append] at hc
  rcases hc with (hyear | hmonth) | hday
  · exact isDigit_padded 4 _ c hyear
  · exact isDigit_padded 2 _ c hmonth
  · exact isDigit_padded 2 _ c hday

theorem length_compactChars (h : d.HasFourDigitYear) : d.compactChars.length = 8 := by
  have hyear : d.year.natAbs < 10 ^ 4 := by
    obtain ⟨_, _⟩ := h
    omega
  rw [compactChars_eq h, List.length_append, List.length_append, length_padded (by decide) hyear,
    length_padded (by decide) d.month_lt, length_padded (by decide) d.day_lt]

theorem natOfDigits_compactChars (h : d.HasFourDigitYear) :
    natOfDigits d.compactChars = (d.year.natAbs * 100 + d.month) * 100 + d.day := by
  have hmonth : (padded 2 d.month).length = 2 := length_padded (by decide) d.month_lt
  have hday : (padded 2 d.day).length = 2 := length_padded (by decide) d.day_lt
  rw [compactChars_eq h, natOfDigits_append, natOfDigits_append, hmonth, hday]
  simp only [natOfDigits_padded]
  rfl

/-- **Compact texts are in the order of their dates.** -/
theorem compactChars_lt_iff (h : d.HasFourDigitYear) (h' : d'.HasFourDigitYear) :
    d.compactChars < d'.compactChars ↔ d < d' := by
  have hlength : d.compactChars.length = d'.compactChars.length := by
    rw [length_compactChars h, length_compactChars h']
  rw [digits_lt_iff (isDigit_compactChars h) (isDigit_compactChars h') hlength,
    natOfDigits_compactChars h, natOfDigits_compactChars h']
  have hday := d.day_le
  have hday' := d'.day_le
  have hmonth := d.onCalendar.2.1
  have hmonth' := d'.onCalendar.2.1
  obtain ⟨hyear, _⟩ := h
  obtain ⟨hyear', _⟩ := h'
  show _ ↔ d.rank < d'.rank
  unfold rank
  omega

end Date

end SnapshotAnalytics

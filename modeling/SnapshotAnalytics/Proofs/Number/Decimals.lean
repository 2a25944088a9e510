import SnapshotAnalytics.Number.Shortest
import SnapshotAnalytics.Proofs.Number.Digits
import SnapshotAnalytics.Proofs.Text.Ends

/-!
# Digits of shortest decimals

The shortest decimal of a double has digits, and starts with a zero only if it is zero. Zero is none of
the decimals that round to another double, and the finest grid that is searched still has a point at
or below the value, so every coefficient that is found is positive.
-/

namespace SnapshotAnalytics

/-! ## §1 Proper decimals -/

/-- A decimal with digits, of which the first is zero only for the number zero. -/
structure Scientific.Proper (s : Scientific) : Prop where
  digits : ∀ c ∈ s.digits, c.isDigit = true
  leading : ∃ first more, s.digits = first :: more ∧ (first ≠ '0' ∨ s = .zero)

namespace Scientific

theorem proper_zero : zero.Proper where
  digits := List.forall_mem_singleton.mpr rfl
  leading := ⟨'0', [], rfl, Or.inr rfl⟩

theorem proper_ofCoefficient {coefficient : Nat} (h : 0 < coefficient) (power : Int) :
    (ofCoefficient coefficient power).Proper := by
  obtain ⟨first, more, hdigits, hfirst⟩ := toDigits_eq_cons h
  have hkept : (ofCoefficient coefficient power).digits =
      Text.dropEndWhile (· == '0') (Nat.toDigits 10 coefficient) := rfl
  refine ⟨fun c hc => ?_, first, Text.dropEndWhile (· == '0') more, ?_, Or.inl hfirst⟩
  · rw [hkept] at hc
    exact isDigit_toDigits coefficient c ((List.rdropWhile_prefix _ _).mem hc)
  · rw [hkept, hdigits, Text.dropEndWhile_cons (by simpa using hfirst)]

end Scientific

/-! ## §2 The search -/

namespace Binary64

theorem powerOfTwo_pos (k : Nat) : 0 < powerOfTwo k :=
  Nat.pow_pos (by decide)

theorem powerOfTen_pos (k : Nat) : 0 < powerOfTen k :=
  Nat.pow_pos (by decide)

theorem powerOfTwo_le {i j : Nat} (h : i ≤ j) : powerOfTwo i ≤ powerOfTwo j :=
  Nat.pow_le_pow_right (by decide) h

theorem powerOfTen_le {i j : Nat} (h : i ≤ j) : powerOfTen i ≤ powerOfTen j :=
  Nat.pow_le_pow_right (by decide) h

namespace RoundingRange

variable {r : RoundingRange} {tie : TieRule}

/-- The grid `10 ^ k` has a positive point at or below the value. -/
def Reached (r : RoundingRange) (k : Int) : Prop :=
  r.den * powerOfTen k.toNat ≤ r.value * powerOfTen (-k).toNat

theorem Reached.finer {k : Int} (h : r.Reached k) : r.Reached (k - 1) := by
  unfold Reached at h ⊢
  rcases Int.lt_or_le 0 k with hk | hk
  · have hfewer : powerOfTen (k - 1).toNat ≤ powerOfTen k.toNat := powerOfTen_le (by omega)
    rw [show (-(k - 1)).toNat = (-k).toNat by omega]
    exact (Nat.mul_le_mul_left _ hfewer).trans h
  · have hmore : powerOfTen (-k).toNat ≤ powerOfTen (-(k - 1)).toNat := powerOfTen_le (by omega)
    rw [show (k - 1).toNat = k.toNat by omega]
    exact h.trans (Nat.mul_le_mul_left _ hmore)

/-- Zero is not in a range above zero. -/
theorem pos_of_contains (hleast : 0 < r.least) {c : Nat} (h : r.contains c = true) : 0 < c := by
  refine Nat.pos_of_ne_zero ?_
  rintro rfl
  unfold contains at h
  split at h
  · simp only [Nat.zero_mul, Bool.and_eq_true, decide_eq_true_eq] at h
    omega
  · simp at h

theorem pos_of_nearest? (hleast : 0 < r.least) {c : Nat} (h : r.nearest? tie = some c) : 0 < c := by
  unfold nearest? at h
  simp only at h
  split at h
  · cases h
  · rename_i hc _
    cases h
    exact pos_of_contains hleast hc
  · cases h
    exact Nat.succ_pos _
  · rename_i hc _
    have hpos := pos_of_contains hleast hc
    split at h <;> cases h
    · exact hpos
    · exact Nat.succ_pos _

/-- What is found is proper, on whatever grid. -/
theorem proper_search (hleast : 0 < r.least) (hden : 0 < r.den) (finer : Nat) {k : Int}
    (h : r.Reached k) : (r.search tie finer k).Proper := by
  induction finer generalizing k with
  | zero =>
    refine Scientific.proper_ofCoefficient (Nat.div_pos h ?_) k
    exact Nat.mul_pos hden (powerOfTen_pos _)
  | succ finer ih =>
    rw [search]
    cases hnearest : (r.scaled k).nearest? tie with
    | none => exact ih h.finer
    | some c =>
      have hscaled : 0 < (r.scaled k).least := Nat.mul_pos hleast (powerOfTen_pos _)
      exact Scientific.proper_ofCoefficient (pos_of_nearest? hscaled hnearest) k

end RoundingRange

/-! ## §3 Doubles -/

theorem powerOfTen_add (i j : Nat) : powerOfTen (i + j) = powerOfTen i * powerOfTen j :=
  Nat.pow_add 10 i j

/-- There are less than 54 decimal places in 179 binary ones. -/
theorem powerOfTwo_le_powerOfTen (n : Nat) {i j : Nat} (hi : i = 2 + 179 * n) (hj : j = 54 * n) :
    powerOfTwo i ≤ 4 * powerOfTen j := by
  subst hi hj
  have hroot : (2 ^ 179) ^ n ≤ (10 ^ 54) ^ n := Nat.pow_le_pow_left (by decide) n
  rw [← Nat.pow_mul, ← Nat.pow_mul] at hroot
  rw [powerOfTwo, powerOfTen, Nat.pow_eq, Nat.pow_eq, Nat.pow_add]
  exact Nat.mul_le_mul_left 4 hroot

/-- A number is not below the power of ten of its first digit. -/
theorem powerOfTen_le_of_length {n : Nat} (hn : 0 < n) :
    powerOfTen ((Nat.toDigits 10 n).length - 1) ≤ n := by
  cases hlength : (Nat.toDigits 10 n).length - 1 with
  | zero => exact hn
  | succ k =>
    refine Nat.le_of_not_lt fun hlt => ?_
    have hle := (Nat.length_toDigits_le_iff (by decide) (Nat.succ_pos k)).mpr hlt
    omega

/-- The grid on which the search starts has a point at or below the value. -/
theorem reached_decimalExponent {r : RoundingRange} (hden : 0 < r.den)
    (hvalue : r.den ≤ r.value * powerOfTen 324) : r.Reached (decimalExponent r.value r.den) := by
  have hk : decimalExponent r.value r.den =
      (Nat.toDigits 10 (r.value * powerOfTen 324 / r.den)).length - 325 := rfl
  have hlength : 0 < (Nat.toDigits 10 (r.value * powerOfTen 324 / r.den)).length :=
    Nat.length_toDigits_pos
  have hleading : powerOfTen ((Nat.toDigits 10 (r.value * powerOfTen 324 / r.den)).length - 1) ≤
      r.value * powerOfTen 324 / r.den :=
    powerOfTen_le_of_length (Nat.div_pos hvalue hden)
  -- From here on only the exponent and the number of digits count, and how they differ.
  generalize hL : (Nat.toDigits 10 (r.value * powerOfTen 324 / r.den)).length = L at *
  generalize decimalExponent r.value r.den = k at *
  have hpowers : powerOfTen k.toNat * powerOfTen 324 =
      powerOfTen (L - 1) * powerOfTen (-k).toNat := by
    rw [← powerOfTen_add, ← powerOfTen_add]
    congr 1
    omega
  refine Nat.le_of_mul_le_mul_right ?_ (powerOfTen_pos 324)
  -- Both sides are scaled up, so that the powers that the two scales differ by cancel out.
  calc r.den * powerOfTen k.toNat * powerOfTen 324
      = powerOfTen (L - 1) * r.den * powerOfTen (-k).toNat := by
        rw [Nat.mul_assoc, hpowers, Nat.mul_comm (powerOfTen (L - 1)) r.den, Nat.mul_assoc]
    _ ≤ r.value * powerOfTen 324 * powerOfTen (-k).toNat :=
        Nat.mul_le_mul_right _ ((Nat.le_div_iff_mul_le hden).mp hleading)
    _ = r.value * powerOfTen (-k).toNat * powerOfTen 324 := Nat.mul_right_comm _ _ _

theorem significand_pos {x : Binary64} (hx : x.isZero = false) : 0 < x.significand := by
  have hmagnitude : x.magnitude ≠ 0 := by simpa [isZero] using hx
  have hunit : 0 < exponentUnit := by decide
  unfold significand
  simp only
  split
  case isTrue hsmall =>
    rw [Nat.mod_eq_of_lt ((Nat.div_eq_zero_iff_lt hunit).mp hsmall)]
    exact Nat.pos_of_ne_zero hmagnitude
  case isFalse => omega

theorem scale_ge (x : Binary64) : -1074 ≤ x.scale := by
  unfold scale
  omega

/-- **The shortest decimal of a double is proper.** -/
theorem proper_shortest (tie : TieRule) (x : Binary64) : (x.shortest tie).Proper := by
  unfold shortest
  split
  case isTrue => exact Scientific.proper_zero
  case isFalse hx =>
    have hm : 0 < x.significand := significand_pos (by simpa using hx)
    have hunit := powerOfTwo_pos (x.scale - 2).toNat
    have hden : 0 < (roundingRange x.significand x.scale).den := powerOfTwo_pos _
    have hleast : 0 < (roundingRange x.significand x.scale).least := by
      refine Nat.mul_pos ?_ hunit
      split <;> omega
    have hvalue : (roundingRange x.significand x.scale).den ≤
        (roundingRange x.significand x.scale).value * powerOfTen 324 := by
      -- The denominator is greatest for the least power of two that a double has.
      have hscale := x.scale_ge
      have hpower : powerOfTwo (2 - x.scale).toNat ≤ powerOfTwo 1076 := powerOfTwo_le (by omega)
      have hten : powerOfTwo 1076 ≤ 4 * powerOfTen 324 := powerOfTwo_le_powerOfTen 6 rfl rfl
      have hfour : 4 ≤ 4 * x.significand * powerOfTwo (x.scale - 2).toNat := by
        rw [Nat.mul_assoc]
        exact Nat.le_mul_of_pos_right 4 (Nat.mul_pos hm hunit)
      exact (hpower.trans hten).trans (Nat.mul_le_mul_right _ hfour)
    exact RoundingRange.proper_search hleast hden 17 (reached_decimalExponent hden hvalue)

end Binary64

end SnapshotAnalytics

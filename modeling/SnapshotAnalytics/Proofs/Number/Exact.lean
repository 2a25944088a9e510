import SnapshotAnalytics.Number.Amount
import Mathlib.Algebra.BigOperators.Group.List.Basic
import Mathlib.Algebra.Order.Ring.Rat
import Mathlib.Order.Compare

/-!
# Exact amounts

Over the rational numbers rankings, folds and sums are those of arithmetic, and nothing is rounded. A
report that is computed from the exact values of its doubles says what the report means; what is shown
differs from it by rounding alone.
-/

namespace SnapshotAnalytics

/-- Rational numbers have one zero, and sums start from it. -/
instance : Amount ℚ where
  zero := 0
  emptySum := 0
  hundred := 100
  add x y := x + y
  sub x y := x - y
  mul x y := x * y
  div x y := x / y
  isZero x := decide (x = 0)
  smaller x y := min x y
  greater x y := max x y
  rank x y := compare x y

/-- Rational numbers are ranked by a total order. -/
instance : Std.TransCmp (Amount.rank : ℚ → ℚ → Ordering) :=
  inferInstanceAs (Std.TransOrd ℚ)

/-- The number that a finite double stands for. -/
def Binary64.toRat (x : Binary64) : ℚ :=
  mkRat (x.signedSignificand * powerOfTwo x.scale.toNat) (powerOfTwo (-x.scale).toNat)

example : (Binary64.ofQuotient true 7 4).toRat = -7 / 4 := by decide +kernel

namespace Amount

theorem foldl_add_exact (xs : List ℚ) (x : ℚ) : xs.foldl add x = x + xs.sum := by
  induction xs generalizing x with
  | nil => simp
  | cons y ys ih =>
    rw [List.foldl_cons, ih, List.sum_cons, ← add_assoc]
    rfl

theorem sum_exact (xs : List ℚ) : sum xs = xs.sum := by
  rw [sum, foldl_add_exact]
  exact zero_add _

end Amount

end SnapshotAnalytics

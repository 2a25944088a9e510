import SnapshotAnalytics.Number.Binary64

/-!
# Amounts

Rankings, folds, shares and running sums are written once over the operations they need. Running
code uses doubles; the same definitions read over exact numbers state what the arithmetic means when
nothing is rounded.
-/

namespace SnapshotAnalytics

/-- The arithmetic that figures are computed with. -/
class Amount (α : Type) where
  /-- Where an accumulation that counts up starts, and what a missing cell is worth. -/
  zero : α
  /-- Where the sum of a sequence starts. -/
  emptySum : α
  /-- The factor that turns a share into a percentage. -/
  hundred : α
  add : α → α → α
  sub : α → α → α
  mul : α → α → α
  div : α → α → α
  /-- Whether a divisor has to be guarded against. -/
  isZero : α → Bool
  smaller : α → α → α
  greater : α → α → α
  /-- The total order that rankings use. -/
  rank : α → α → Ordering

namespace Amount

variable {α : Type} [Amount α]

/-- The sum of a sequence, from left to right. -/
def sum (amounts : List α) : α :=
  amounts.foldl add emptySum

/-- The percentage that `part` is of `whole`, zero when there is no whole. -/
def percentage (part whole : α) : α :=
  if isZero whole then zero else mul (div part whole) hundred

end Amount

/-- Doubles add up from negative zero, which no addend is changed by. -/
instance : Amount Binary64 where
  zero := .zeroOf false
  emptySum := .zeroOf true
  hundred := .ofNat 100
  add := Binary64.add
  sub := Binary64.sub
  mul := Binary64.mul
  div := Binary64.div
  isZero := Binary64.isZero
  smaller := Binary64.smaller
  greater := Binary64.greater
  rank x y := compare x.place y.place

end SnapshotAnalytics

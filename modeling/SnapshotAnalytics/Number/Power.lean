/-!
# Powers of two and of ten

Binary and decimal numbers differ in what their places weigh: powers of two, or powers of ten.
-/

namespace SnapshotAnalytics

/-- The power `2 ^ k`. -/
def powerOfTwo (k : Nat) : Nat :=
  Nat.pow 2 k

/-- The power `10 ^ k`. -/
def powerOfTen (k : Nat) : Nat :=
  Nat.pow 10 k

end SnapshotAnalytics

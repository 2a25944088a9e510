import SnapshotAnalytics.Number.Power

/-!
# Double precision numbers

Amounts are IEEE 754 doubles, held as their 64 bits. A finite double is a sign, a significand and a
power of two; every operation computes its result exactly on integers and rounds once, to nearest,
ties to the even significand. Holding the bits keeps the sign of zero and of NaN, which the total
order can tell apart, and makes every operation a function that proofs can evaluate.
-/

namespace SnapshotAnalytics

/-- A double, as its bits: one for the sign, eleven for the exponent, fifty-two for the fraction. -/
structure Binary64 where
  bits : UInt64
  deriving DecidableEq, Repr, Inhabited

namespace Binary64

/-! ## §1 Parts of a double -/

/-- What the sign bit weighs, `2 ^ 63`. -/
def signUnit : Nat := 0x8000000000000000

/-- What the lowest bit of the exponent weighs, `2 ^ 52`. -/
def exponentUnit : Nat := 0x10000000000000

/-- The bits below the sign, read as a number. Among doubles that are not NaN it grows with the
absolute value. -/
def magnitude (x : Binary64) : Nat :=
  x.bits.toNat % signUnit

def isNegative (x : Binary64) : Bool :=
  signUnit ≤ x.bits.toNat

/-- The magnitude of infinity; those of NaN lie above it and those of finite doubles below. -/
def infiniteMagnitude : Nat :=
  2047 * exponentUnit

def pack (negative : Bool) (magnitude : Nat) : Binary64 :=
  ⟨UInt64.ofNat ((if negative then signUnit else 0) + magnitude)⟩

def isNaN (x : Binary64) : Bool :=
  infiniteMagnitude < x.magnitude

def isInfinite (x : Binary64) : Bool :=
  x.magnitude == infiniteMagnitude

/-- Neither infinite nor NaN. -/
def isFinite (x : Binary64) : Bool :=
  x.magnitude < infiniteMagnitude

/-- Positive or negative zero. -/
def isZero (x : Binary64) : Bool :=
  x.magnitude == 0

/-- The integer `m` of a finite double `± m · 2 ^ q`. -/
def significand (x : Binary64) : Nat :=
  let fraction := x.magnitude % exponentUnit
  -- subnormal doubles have exponent zero and no implicit leading bit
  if x.magnitude / exponentUnit = 0 then fraction else exponentUnit + fraction

/-- The power `q` of a finite double `± m · 2 ^ q`. -/
def scale (x : Binary64) : Int :=
  (max (x.magnitude / exponentUnit) 1 : Nat) - 1075

def signedSignificand (x : Binary64) : Int :=
  if x.isNegative then -x.significand else x.significand

/-! ## §2 Constants and signs -/

/-- Zero with the given sign. -/
def zeroOf (negative : Bool) : Binary64 :=
  pack negative 0

def infinityOf (negative : Bool) : Binary64 :=
  pack negative infiniteMagnitude

/-- The quiet NaN with the given sign and no payload. -/
def nanOf (negative : Bool) : Binary64 :=
  pack negative (infiniteMagnitude + exponentUnit / 2)

/-- The result of an operation that has no value, such as infinity minus infinity. -/
def invalid : Binary64 :=
  nanOf true

/-- A NaN operand as it comes out of an operation. -/
def quieted (x : Binary64) : Binary64 :=
  ⟨x.bits ||| UInt64.ofNat (exponentUnit / 2)⟩

def neg (x : Binary64) : Binary64 :=
  pack (!x.isNegative) x.magnitude

/-! ## §3 Rounding -/

/-- The quotient rounded to the nearest integer, a tie to the even one. -/
def divNearestEven (num den : Nat) : Nat :=
  let q := num / den
  let r := num % den
  if den < 2 * r || (2 * r == den && q % 2 == 1) then q + 1 else q

/-- The greatest `k` with `2 ^ k ≤ num / den`, for positive `num` and `den`. -/
def leadingPower (num den : Nat) : Int :=
  let k : Int := num.log2 - den.log2
  if den * powerOfTwo k.toNat ≤ num * powerOfTwo (-k).toNat then k else k - 1

/-- The double nearest to `± num / den`, a tie to the even significand; what lies beyond the
greatest finite double by half a step or more is infinite. -/
def ofQuotient (negative : Bool) (num den : Nat) : Binary64 :=
  if num = 0 then
    zeroOf negative
  else
    -- 53 significant bits, fewer where the least power a double has is reached
    let power := max (leadingPower num den - 52) (-1074)
    let m := divNearestEven (num * powerOfTwo (-power).toNat) (den * powerOfTwo power.toNat)
    -- the implicit bit of `m` adds one to the exponent, and so does a carry out of rounding
    pack negative (min ((power + 1074).toNat * exponentUnit + m) infiniteMagnitude)

/-- The double nearest to `± m · 2 ^ q`. -/
def ofScaled (negative : Bool) (m : Nat) (q : Int) : Binary64 :=
  ofQuotient negative (m * powerOfTwo q.toNat) (powerOfTwo (-q).toNat)

/-- The double nearest to a natural number. -/
def ofNat (n : Nat) : Binary64 :=
  ofQuotient false n 1

/-- The double nearest to `± m · 10 ^ e`. Powers far outside the range of doubles are settled
without being computed. -/
def ofDecimal (negative : Bool) (m : Nat) (e : Int) : Binary64 :=
  let lead := ((Nat.toDigits 10 m).length : Int) + e
  if m = 0 || lead < -400 then
    zeroOf negative
  else if 400 < lead then
    infinityOf negative
  else
    ofQuotient negative (m * powerOfTen e.toNat) (powerOfTen (-e).toNat)

/-! ## §4 Arithmetic -/

/-- An operation on two doubles: a NaN operand is the result, the first one if both are. -/
def orNaN (x y : Binary64) (result : Binary64) : Binary64 :=
  if x.isNaN then x.quieted else if y.isNaN then y.quieted else result

/-- The sum of two finite doubles. A sum of zero is negative only if both operands are. -/
def addFinite (x y : Binary64) : Binary64 :=
  -- both operands as integers over the smaller of the two powers: the sum is exact until rounded
  let q := min x.scale y.scale
  let total := x.signedSignificand * powerOfTwo (x.scale - q).toNat
    + y.signedSignificand * powerOfTwo (y.scale - q).toNat
  if total = 0 then
    zeroOf (x.isNegative && y.isNegative)
  else
    ofScaled (total < 0) total.natAbs q

/-- The sum of two doubles that are not NaN. -/
def addNumbers (x y : Binary64) : Binary64 :=
  if x.isInfinite then
    if y.isInfinite && x.isNegative != y.isNegative then invalid else x
  else if y.isInfinite then
    y
  else
    addFinite x y

def add (x y : Binary64) : Binary64 :=
  orNaN x y (addNumbers x y)

def sub (x y : Binary64) : Binary64 :=
  orNaN x y (addNumbers x y.neg)

def mul (x y : Binary64) : Binary64 :=
  let negative := x.isNegative != y.isNegative
  orNaN x y <|
    if x.isInfinite || y.isInfinite then
      if x.isZero || y.isZero then invalid else infinityOf negative
    else
      ofScaled negative (x.significand * y.significand) (x.scale + y.scale)

def div (x y : Binary64) : Binary64 :=
  let negative := x.isNegative != y.isNegative
  orNaN x y <|
    if x.isInfinite then
      if y.isInfinite then invalid else infinityOf negative
    else if y.isInfinite then
      zeroOf negative
    else if y.isZero then
      if x.isZero then invalid else infinityOf negative
    else
      let q := x.scale - y.scale
      ofQuotient negative (x.significand * powerOfTwo q.toNat)
        (y.significand * powerOfTwo (-q).toNat)

/-! ## §5 Order -/

/-- The magnitude with its sign; the two zeros coincide. -/
def signedMagnitude (x : Binary64) : Int :=
  if x.isNegative then -x.magnitude else x.magnitude

/-- The numeric order, in which NaN is below nothing and nothing is below NaN. -/
def less (x y : Binary64) : Bool :=
  !x.isNaN && !y.isNaN && x.signedMagnitude < y.signedMagnitude

/-- The place of a double in the total order: negative NaN, negative infinity, the negative numbers,
negative zero, zero, the positive numbers, infinity, NaN. -/
def place (x : Binary64) : Int :=
  -- `- 1` puts negative zero below zero
  if x.isNegative then -x.magnitude - 1 else x.magnitude

/-- The smaller of two numbers; a NaN is passed over, and of two equal ones the second is taken, which
matters for zeros of different signs. -/
def smaller (x y : Binary64) : Binary64 :=
  if x.isNaN then y else if y.isNaN || x.less y then x else y

/-- The greater of two numbers; a NaN is passed over, and of two equal ones the second is taken. -/
def greater (x y : Binary64) : Binary64 :=
  if x.isNaN then y else if y.isNaN || y.less x then x else y

end Binary64

end SnapshotAnalytics

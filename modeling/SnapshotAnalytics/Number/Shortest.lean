import SnapshotAnalytics.Number.Binary64

/-!
# Shortest decimals

A double is written with the fewest significant decimal digits that still lie nearer to it than to
any other double, and among those with the digits nearest to it; where two are equally near, the writer's rule for
ties decides. For each digit count the decimals
of that count form a grid of step `10 ^ k`, and if any point of a grid rounds to the double then one
of its two neighbours on that grid does; so the search looks at two points per grid, coarsest first.
All comparisons are between natural numbers.
-/

namespace SnapshotAnalytics

/-- A decimal in scientific form `d.ddd · 10 ^ exponent`, the digits without the point. -/
structure Scientific where
  digits : List Char
  exponent : Int
  deriving DecidableEq, Repr

namespace Scientific

/-- Zero is a single digit. -/
def zero : Scientific := ⟨['0'], 0⟩

/-- The decimal `coefficient · 10 ^ power` without zeros at its end. -/
def ofCoefficient (coefficient : Nat) (power : Int) : Scientific :=
  let digits := Nat.toDigits 10 coefficient
  ⟨(digits.reverse.dropWhile (· == '0')).reverse, power + digits.length - 1⟩

/-- Plain decimal notation; `wholeEnd` is written behind a number without a fraction. -/
def positional (wholeEnd : List Char) (s : Scientific) : List Char :=
  let whole := (s.exponent + 1).toNat
  if s.exponent < 0 then
    '0' :: '.' :: List.replicate (-s.exponent - 1).toNat '0' ++ s.digits
  else if s.digits.length ≤ whole then
    s.digits ++ List.replicate (whole - s.digits.length) '0' ++ wholeEnd
  else
    s.digits.take whole ++ '.' :: s.digits.drop whole

/-- Notation with an explicit, signed exponent; a single digit has no point. -/
def exponential (s : Scientific) : List Char :=
  let sign := if s.exponent < 0 then '-' else '+'
  let power := sign :: Nat.toDigits 10 s.exponent.natAbs
  match s.digits with
  | [] => 'e' :: power
  | [d] => d :: 'e' :: power
  | d :: more => d :: '.' :: more ++ 'e' :: power

end Scientific

/-- Which of two equally near neighbours on a grid is taken. -/
inductive TieRule where
  /-- The even one. -/
  | toEven
  /-- The greater one. -/
  | upward
  deriving DecidableEq, Repr

/-- Whether a tie between `c` and `c + 1` goes to `c`. -/
def TieRule.takesLower (rule : TieRule) (c : Nat) : Bool :=
  match rule with
  | toEven => c % 2 == 0
  | upward => false

namespace Binary64

/-- The decimals that round to a finite double, in units of `1 / den`: those between `least` and
`greatest` around `value`, the two ends included when `closed`. -/
structure RoundingRange where
  value : Nat
  least : Nat
  greatest : Nat
  den : Nat
  closed : Bool

/-- The rounding range of `m · 2 ^ q`. Below a power of two the doubles lie twice as dense. -/
def roundingRange (m : Nat) (q : Int) : RoundingRange :=
  -- in quarters of `2 ^ q`, so that half a step to either neighbour is an integer
  let unit := powerOfTwo (q - 2).toNat
  let below := if m = exponentUnit && -1074 < q then 1 else 2
  { value := 4 * m * unit
    least := (4 * m - below) * unit
    greatest := (4 * m + 2) * unit
    den := powerOfTwo (2 - q).toNat
    -- a decimal halfway between two doubles rounds to the even one
    closed := m % 2 == 0 }

namespace RoundingRange

/-- The range measured in steps of `10 ^ k`. -/
def scaled (r : RoundingRange) (k : Int) : RoundingRange :=
  let up := powerOfTen (-k).toNat
  { value := r.value * up
    least := r.least * up
    greatest := r.greatest * up
    den := r.den * powerOfTen k.toNat
    closed := r.closed }

/-- Whether the integer `c` lies in the range. -/
def contains (r : RoundingRange) (c : Nat) : Bool :=
  if r.closed then
    r.least ≤ c * r.den && c * r.den ≤ r.greatest
  else
    r.least < c * r.den && c * r.den < r.greatest

/-- The integer of the range nearest to the value, if one of its two neighbours lies in the range. -/
def nearest? (tie : TieRule) (r : RoundingRange) : Option Nat :=
  let c := r.value / r.den
  match r.contains c, r.contains (c + 1) with
  | false, false => none
  | true, false => some c
  | false, true => some (c + 1)
  | true, true =>
    -- The tie rule decides only if both neighbours are equally far away.
    let lower := r.value - c * r.den
    let upper := (c + 1) * r.den - r.value
    some (if lower < upper || (lower == upper && tie.takesLower c) then c else c + 1)

/-- The coarsest of the grids `10 ^ k`, `10 ^ (k - 1)`, … with a point in the range, and that point;
the number bounds how many finer grids are tried. -/
def search (tie : TieRule) (r : RoundingRange) : Nat → Int → Scientific
  | 0, k => .ofCoefficient ((r.scaled k).value / (r.scaled k).den) k
  | finer + 1, k =>
    match (r.scaled k).nearest? tie with
    | some c => .ofCoefficient c k
    | none => search tie r finer (k - 1)

end RoundingRange

/-- The exponent of the first decimal digit of `value / den`, for quotients above `10 ^ -324`. -/
def decimalExponent (value den : Nat) : Int :=
  ((Nat.toDigits 10 (value * powerOfTen 324 / den)).length : Int) - 325

/-- The shortest decimal of the absolute value of a finite double. -/
def shortest (tie : TieRule) (x : Binary64) : Scientific :=
  if x.isZero then
    .zero
  else
    let r := roundingRange x.significand x.scale
    -- seventeen digits always tell a double from its neighbours
    r.search tie 17 (decimalExponent r.value r.den)

/-- A finite double in plain decimal notation: no exponent, no point after a whole number, and of two
equally near decimals the greater in magnitude. -/
def plainText (x : Binary64) : List Char :=
  (if x.isNegative then ['-'] else []) ++ (x.shortest .upward).positional []

end Binary64

end SnapshotAnalytics

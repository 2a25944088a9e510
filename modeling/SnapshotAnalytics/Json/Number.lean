import SnapshotAnalytics.Number.Reading
import SnapshotAnalytics.Number.Shortest

/-!
# Numbers in JSON

A number is a natural number below `2 ^ 64`, a negative integer down to `-2 ^ 63`, or a finite
double. Which of the three a literal is depends on how it is written: a literal with a point or an
exponent, or an integer out of range, is a double, and so is `-0`.

A double literal is read in two rounded steps. The leading digits that fit 64 bits make a significand,
which is rounded to a double; that is multiplied by or divided by the power of ten that is left. For
literals of up to fifteen digits with a small exponent both steps are exact or the second one rounds
correctly, so the result is the nearest double.
-/

namespace SnapshotAnalytics.Json

/-- A number: natural, negative (`below` stands for `-(below + 1)`), or a finite double. -/
inductive Number where
  | natural (n : UInt64)
  | negative (below : Fin 0x8000000000000000)
  | double (x : Binary64) (finite : x.isFinite = true)
  deriving DecidableEq

namespace Number

/-! ## §1 Values -/

/-- A double as a number, if it is finite. -/
def ofBinary64? (x : Binary64) : Option Number :=
  if h : x.isFinite = true then some (.double x h) else none

/-- The double nearest to a number. -/
def toBinary64 : Number → Binary64
  | natural n => .ofNat n.toNat
  | negative below => (Binary64.ofNat (below + 1)).neg
  | double x _ => x

/-! ## §2 Writing -/

/-- A double: plain decimal notation when its first digit stands between the fifth place behind the
point and the sixteenth before it, always with a fraction; otherwise a signed exponent. Of two equally
near decimals the even one is taken. -/
def doubleText (x : Binary64) : List Char :=
  let s := x.shortest .toEven
  (if x.isNegative then ['-'] else []) ++
    if -5 ≤ s.exponent ∧ s.exponent < 16 then s.positional ['.', '0'] else s.exponential

def text : Number → List Char
  | natural n => Nat.toDigits 10 n.toNat
  | negative below => '-' :: Nat.toDigits 10 (below + 1)
  | double x _ => doubleText x

/-! ## §3 Reading -/

/-- The parts of a number literal: the digits before and behind the point and the exponent, the last
two with a mark whether they were written. -/
structure Literal where
  negative : Bool
  whole : List Char
  fraction : Option (List Char)
  exponent : Option Int

/-- The digits before the point: a single zero, or digits that do not start with zero. -/
def isWholePart : List Char → Bool
  | [] => false
  | ['0'] => true
  | c :: _ => c != '0'

/-- Read the parts behind the digits before the point. -/
def readTail? (negative : Bool) (whole : List Char) : List Char → Option Literal
  | '.' :: r =>
    let fraction := r.takeWhile Char.isDigit
    -- A point has at least one digit behind it.
    match r.dropWhile Char.isDigit with
    | [] => if fraction.isEmpty then none else some ⟨negative, whole, some fraction, none⟩
    | rest =>
      if fraction.isEmpty then none
      else (Binary64.readExponent? rest).map fun e => ⟨negative, whole, some fraction, some e⟩
  | [] => some ⟨negative, whole, none, none⟩
  | rest => (Binary64.readExponent? rest).map fun e => ⟨negative, whole, none, some e⟩

def Literal.read? (s : List Char) : Option Literal :=
  let (negative, s) := match s with
    | '-' :: r => (true, r)
    | r => (false, r)
  let whole := s.takeWhile Char.isDigit
  if isWholePart whole then readTail? negative whole (s.dropWhile Char.isDigit) else none

/-- Append digits to a significand as long as it stays below `2 ^ 64`; gives back the digits that are
left. -/
def absorb (significand : Nat) : List Char → Nat × List Char
  | [] => (significand, [])
  | c :: digits =>
    let longer := 10 * significand + (c.toNat - '0'.toNat)
    if longer < 0x10000000000000000 then absorb longer digits else (significand, c :: digits)

/-- Divide by `10 ^ e`, by the greatest power of ten among the doubles as long as that is too much
for one step. -/
def divideByTen (x : Binary64) (e : Nat) : Binary64 :=
  if e ≤ 308 then
    x.div (.ofDecimal false 1 e)
  else if x.isZero then
    x
  else
    divideByTen (x.div (.ofDecimal false 1 308)) (e - 308)
  termination_by e

/-- A significand times `10 ^ e`, in two rounded steps; nothing when it is out of range. -/
def scaleSignificand? (significand : Nat) (e : Int) : Option Binary64 :=
  let x := Binary64.ofNat significand
  if e < 0 then
    some (divideByTen x e.natAbs)
  else if e ≤ 308 then
    (some (x.mul (.ofDecimal false 1 e))).filter Binary64.isFinite
  -- Beyond this power any significand but zero is out of range.
  else if x.isZero then
    some x
  else
    none

/-- The value of a literal as a double; nothing when it is out of range. -/
def Literal.double? (l : Literal) : Option Number :=
  -- a dropped whole digit raises the power of ten, an absorbed fractional digit lowers it
  let (significand, dropped) := absorb 0 l.whole
  let fraction := l.fraction.getD []
  let (significand, unused) := absorb significand fraction
  let e := dropped.length - (fraction.length - unused.length : Nat) + l.exponent.getD 0
  (scaleSignificand? significand e).bind fun x => ofBinary64? (if l.negative then x.neg else x)

/-- The value of a literal; nothing when it is out of range. -/
def Literal.value? (l : Literal) : Option Number :=
  let n := natOfDigits l.whole
  if l.fraction.isSome || l.exponent.isSome || 0x10000000000000000 ≤ n then
    l.double?
  else if l.negative then
    -- `-0` is no integer but a double, since integers have no negative zero
    if h : n ≠ 0 ∧ n ≤ 0x8000000000000000 then
      some (.negative ⟨n - 1, by omega⟩)
    else
      l.double?
  else
    some (.natural (UInt64.ofNat n))

end Number

end SnapshotAnalytics.Json

import SnapshotAnalytics.Number.Binary64

/-!
# Reading doubles

A number is written as an optional sign, digits with an optional point among or around them, and an
optional exponent; `inf`, `infinity` and `nan` are read in any letter case. The value read is the
double nearest to the decimal written. Blanks, digit separators and other number systems are refused.
-/

namespace SnapshotAnalytics

/-- The number that decimal digits stand for. -/
def natOfDigits (digits : List Char) : Nat :=
  digits.foldl (fun n c => 10 * n + (c.toNat - '0'.toNat)) 0

namespace Binary64

/-- Read the exponent behind the digits: nothing, or `e` with an optional sign and digits. -/
def readExponent? : List Char → Option Int
  | [] => some 0
  | c :: s =>
    if c = 'e' || c = 'E' then
      let (negative, digits) := match s with
        | '-' :: r => (true, r)
        | '+' :: r => (false, r)
        | r => (false, r)
      if digits.isEmpty || !digits.all Char.isDigit then
        none
      else
        some (if negative then -(natOfDigits digits : Int) else natOfDigits digits)
    else
      none

/-- Read a number without its sign. -/
def readUnsigned? (negative : Bool) (s : List Char) : Option Binary64 :=
  let word := s.map Char.toLower
  if word = "inf".toList || word = "infinity".toList then
    some (infinityOf negative)
  else if word = "nan".toList then
    some (nanOf negative)
  else
    let whole := s.takeWhile Char.isDigit
    let (fraction, rest) := match s.dropWhile Char.isDigit with
      | '.' :: r => (r.takeWhile Char.isDigit, r.dropWhile Char.isDigit)
      | r => ([], r)
    if whole.isEmpty && fraction.isEmpty then
      none
    else
      (readExponent? rest).map fun e =>
        ofDecimal negative (natOfDigits (whole ++ fraction)) (e - fraction.length)

def read? : List Char → Option Binary64
  | '-' :: s => readUnsigned? true s
  | '+' :: s => readUnsigned? false s
  | s => readUnsigned? false s

/-- Read a number that is neither infinite nor NaN. -/
def readFinite? (s : List Char) : Option Binary64 :=
  (read? s).filter isFinite

end Binary64

end SnapshotAnalytics

/-!
# Hexadecimal digits

Digits to the base sixteen, bytes as pairs of them in either letter case, and the numbers that they
spell.
-/

namespace SnapshotAnalytics.Text

/-- The digit of a number below sixteen, in lower case. -/
def lowerHexDigit (n : Nat) : Char :=
  Nat.digitChar (n % 16)

/-- The digit of a number below sixteen, in upper case. -/
def upperHexDigit (n : Nat) : Char :=
  (Nat.digitChar (n % 16)).toUpper

/-- The value of a digit, in either letter case. -/
def hexValue? (c : Char) : Option Nat :=
  if c.isDigit then some (c.toNat - '0'.toNat)
  else if 'a' ≤ c && c ≤ 'f' then some (c.toNat - 'a'.toNat + 10)
  else if 'A' ≤ c && c ≤ 'F' then some (c.toNat - 'A'.toNat + 10)
  else none

def ofHexValues (values : List Nat) : Nat :=
  values.foldl (fun n digit => 16 * n + digit) 0

def hexPair (digit : Nat → Char) (byte : UInt8) : List Char :=
  [digit (byte.toNat / 16), digit byte.toNat]

/-- Bytes as lower-case digits. -/
def hex (bytes : List UInt8) : List Char :=
  bytes.flatMap (hexPair lowerHexDigit)

end SnapshotAnalytics.Text

import SnapshotAnalytics.Text.Bytes
import SnapshotAnalytics.Text.Hexadecimal

/-!
# Percent encoding

In the query part of a URL every byte of a text is written as a percent sign and two upper-case
digits, except for ASCII letters, digits and `-`, `_`, `.`, `~`, which stand for themselves.
-/

namespace SnapshotAnalytics.Text

/-- A character that stands for itself in a URL. -/
def isUnreserved (c : Char) : Bool :=
  c.isAlphanum || c == '-' || c == '_' || c == '.' || c == '~'

def percentByte (byte : UInt8) : List Char :=
  let c := Char.ofNat byte.toNat
  if isUnreserved c then [c] else '%' :: hexPair upperHexDigit byte

def percentEncode (s : List Char) : List Char :=
  (utf8 s).flatMap percentByte

end SnapshotAnalytics.Text

/-!
# White space

White space is the Unicode property `White_Space`. Texts are compared, parsed and stored after the
white space at their two ends is taken away; white space inside a text is kept.
-/

namespace SnapshotAnalytics.Text

/-- The code points of the Unicode property `White_Space`, as closed ranges. -/
def blankRanges : List (Nat × Nat) :=
  [(0x09, 0x0D), (0x20, 0x20), (0x85, 0x85), (0xA0, 0xA0), (0x1680, 0x1680), (0x2000, 0x200A),
    (0x2028, 0x2029), (0x202F, 0x202F), (0x205F, 0x205F), (0x3000, 0x3000)]

/-- A character is blank when it has the Unicode property `White_Space`. -/
def isBlank (c : Char) : Bool :=
  blankRanges.any fun range => range.1 ≤ c.toNat && c.toNat ≤ range.2

/-- The characters without the blanks in front. -/
def trimFront (s : List Char) : List Char :=
  s.dropWhile isBlank

/-- The characters without the longest end that satisfies `p`. -/
def dropEndWhile (p : Char → Bool) (s : List Char) : List Char :=
  (s.reverse.dropWhile p).reverse

/-- The characters without the blanks in front and behind. -/
def trim (s : List Char) : List Char :=
  dropEndWhile isBlank (trimFront s)

/-- A text without the blanks in front and behind. -/
def trimmed (s : String) : String :=
  String.ofList (trim s.toList)

end SnapshotAnalytics.Text

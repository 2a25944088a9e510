import SnapshotAnalytics.Text.Search

/-!
# Identifiers

Tables, columns and fields are named by plain identifiers: an ASCII letter or an underscore, then
ASCII letters, digits and underscores. A table may be qualified by one database name.
-/

namespace SnapshotAnalytics.Text

/-- A character that may start an identifier. -/
def isIdentifierStart (c : Char) : Bool :=
  c.isAlpha || c == '_'

/-- A character that may stand inside an identifier. -/
def isIdentifierPart (c : Char) : Bool :=
  c.isAlphanum || c == '_'

def isIdentifierText : List Char → Bool
  | [] => false
  | c :: s => isIdentifierStart c && s.all isIdentifierPart

def isIdentifier (name : String) : Bool :=
  isIdentifierText name.toList

/-- The name of a table: an identifier, or a database and a table separated by a point. -/
def isTableIdentifier (name : String) : Bool :=
  let parts := splitOn '.' name.toList
  parts.length ≤ 2 && parts.all isIdentifierText

end SnapshotAnalytics.Text

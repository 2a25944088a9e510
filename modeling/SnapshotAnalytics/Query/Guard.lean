import SnapshotAnalytics.Query.Error
import SnapshotAnalytics.Text.Blank
import SnapshotAnalytics.Text.Casing
import SnapshotAnalytics.Text.Search

/-!
# The read-only guard

Only reading queries are sent: a query starts with `SELECT` or `WITH`, selects into no table, and has
a semicolon only if it ends with one.
-/

namespace SnapshotAnalytics.Guard

/-- Whether a query, without blanks at its ends and in upper case, starts like a reading query. -/
def startsReading (upper : List Char) : Bool :=
  "SELECT".toList.isPrefixOf upper || "WITH".toList.isPrefixOf upper

/-- Whether a query, in upper case, selects into a table. -/
def selectsInto (upper : List Char) : Bool :=
  Text.occurs " INTO ".toList upper && !Text.occurs "INSERT INTO".toList upper

/-- Whether a query without blanks at its ends has a semicolon but does not end with one. -/
def hasInnerSemicolon (trimmed : List Char) : Bool :=
  trimmed.contains ';' && trimmed.getLast? != some ';'

def check (sql : String) : Except QueryError Unit :=
  let trimmed := Text.trim sql.toList
  let upper := Text.upper trimmed
  if !startsReading upper then
    .error (.invalidSql "only SELECT and WITH queries are allowed")
  else if selectsInto upper then
    .error (.invalidSql "SELECT INTO is not allowed")
  else if hasInnerSemicolon trimmed then
    .error (.invalidSql "multiple statements not allowed")
  else
    .ok ()

end SnapshotAnalytics.Guard

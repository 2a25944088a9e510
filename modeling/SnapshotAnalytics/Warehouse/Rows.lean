import SnapshotAnalytics.Query.Error
import SnapshotAnalytics.Query.Result
import SnapshotAnalytics.Text.Blank
import SnapshotAnalytics.Text.Search

/-!
# Rows as lines

A warehouse answers with a JSON object on each line; blank lines do not count. The first object says
which columns there are; a later object has null where it lacks one of them, and what it has beyond
them is dropped. What the reader of JSON complains of in a line that is no object is left open.
-/

namespace SnapshotAnalytics.Warehouse

def rowLines (body : String) : List (List Char) :=
  (Text.lines body.toList).filter fun line => !(Text.trim line).isEmpty

def recordOfLine? (line : List Char) : Option Record :=
  match (Json.Draft.ofChars? line).bind Json.Draft.value? with
  | some (.object members) => some members
  | _ => none

def resultOfRecords (elapsedMs : Nat) : List Record → QueryResult
  | [] => .ofRows [] [] elapsedMs
  | first :: records =>
    let names := first.map (·.1)
    .ofRows (first.map fun (name, cell) => ⟨name, .ofCell cell, true⟩)
      ((first :: records).map fun record => names.map (QueryResult.cellOf record)) elapsedMs

/-- The record on a line, or the complaint about it. -/
def recordOfLine (complaint : List Char → String) (line : List Char) : Except QueryError Record :=
  match recordOfLine? line with
  | some record => .ok record
  | none => .error (.serialization s!"failed to parse JSON row: {complaint line}")

def readRows (complaint : List Char → String) (elapsedMs : Nat) (body : String) :
    Except QueryError QueryResult := do
  return resultOfRecords elapsedMs (← (rowLines body).mapM (recordOfLine complaint))

end SnapshotAnalytics.Warehouse

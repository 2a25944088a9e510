import SnapshotAnalytics.Json.Reading

/-!
# Query results

A result is a table of JSON cells under named columns. Rows can be shorter or longer than the list of
columns; a row read as a record pairs columns and cells as far as both reach, and of columns with the
same name the last one counts.
-/

namespace SnapshotAnalytics

/-- The type of a cell. -/
inductive CellType where
  | integer
  | natural
  | float
  | string
  | boolean
  | json
  | unknown
  deriving DecidableEq

namespace CellType

def name : CellType → String
  | integer => "int64"
  | natural => "uint64"
  | float => "float64"
  | string => "string"
  | boolean => "boolean"
  | json => "json"
  | unknown => "unknown"

def ofName? (s : String) : Option CellType :=
  [integer, natural, float, string, boolean, json, unknown].find? (·.name == s)

def ofCell : Json → CellType
  | .null => unknown
  | .bool _ => boolean
  | .number (.natural _) => natural
  | .number (.negative _) => integer
  | .number (.double _ _) => float
  | .text _ => string
  | .array _ => json
  | .object _ => json

end CellType

/-- A named column. -/
structure Column where
  name : String
  type : CellType
  nullable : Bool
  deriving DecidableEq

/-- A row as a record: names in ascending order, each with its cell. -/
abbrev Record := List (String × Json)

/-- The answer to a query. -/
structure QueryResult where
  columns : List Column
  rows : List (List Json)
  rowCount : Nat
  elapsedMs : Nat

namespace QueryResult

/-! ## §1 Building results -/

def ofRows (columns : List Column) (rows : List (List Json)) (elapsedMs : Nat) : QueryResult :=
  ⟨columns, rows, rows.length, elapsedMs⟩

/-- The result without columns and rows. -/
def empty : QueryResult :=
  ofRows [] [] 0

/-- The cell of a record under a name, null when there is none. -/
def cellOf (record : Record) (name : String) : Json :=
  (Keyed.find? name record).getD .null

/-- The first cell under a name that is not null. -/
def sample (records : List Record) (name : String) : Json :=
  ((records.map (cellOf · name)).find? fun cell => !cell.isNull).getD .null

/-- A result with the given columns, each of the type of its first cell that is not null, and a row
for each record. -/
def ofRecords (names : List String) (records : List Record) : QueryResult :=
  ofRows (names.map fun name => ⟨name, .ofCell (sample records name), true⟩)
    (records.map fun record => names.map (cellOf record)) 0

/-! ## §2 Reading results -/

def names (r : QueryResult) : List String :=
  r.columns.map (·.name)

/-- The place of the first column of a name. -/
def columnIndex? (r : QueryResult) (name : String) : Option Nat :=
  r.columns.findIdx? (·.name == name)

def cell? (r : QueryResult) (row : Nat) (name : String) : Option Json := do
  let column ← r.columnIndex? name
  let cells ← r.rows[row]?
  cells[column]?

def records (r : QueryResult) : List Record :=
  r.rows.map fun row => Keyed.ofList (r.names.zip row)

/-! ## §3 JSON -/

def columnToJson (c : Column) : Json :=
  .object [("name", .text c.name), ("data_type", .text c.type.name), ("nullable", .bool c.nullable)]

def toJson (r : QueryResult) : Json :=
  .object [("columns", .array (r.columns.map columnToJson)),
    ("rows", .array (r.rows.map .array)),
    ("row_count", .ofNat r.rowCount),
    ("execution_time_ms", .ofNat r.elapsedMs)]

def columnOfDraft? (d : Json.Draft) : Option Column := do
  match ← d.slots? ["name", "data_type", "nullable"] with
  | [name, type, nullable] =>
    return {
      name := ← Slot.required Json.Draft.text? name
      type := ← Slot.required (Json.Draft.alternative? CellType.ofName?) type
      nullable := ← Slot.required Json.Draft.bool? nullable }
  | _ => none

def ofDraft? (d : Json.Draft) : Option QueryResult := do
  match ← d.slots? ["columns", "rows", "row_count", "execution_time_ms"] with
  | [columns, rows, rowCount, elapsedMs] =>
    return {
      columns := ← Slot.required (Json.Draft.list? columnOfDraft?) columns
      rows := ← Slot.required (Json.Draft.list? (Json.Draft.list? Json.Draft.value?)) rows
      rowCount := ← Slot.required Json.Draft.count? rowCount
      elapsedMs := ← Slot.required Json.Draft.count? elapsedMs }
  | _ => none

def encode (r : QueryResult) : String :=
  r.toJson.render

def decode? (s : String) : Option QueryResult :=
  (Json.Draft.ofText? s).bind ofDraft?

end QueryResult

end SnapshotAnalytics

import SnapshotAnalytics.Json.Basic
import SnapshotAnalytics.Number.Reading
import SnapshotAnalytics.Table.Field

/-!
# Reading cells

The cells of an answer are JSON values. A report reads a cell as a figure, as a label or as a date;
a cell that is no figure counts as zero, one that is no date has none.
-/

namespace SnapshotAnalytics.Cell

def figure : Json → Binary64
  | .number n => n.toBinary64
  | .text s => (Binary64.readFinite? (Text.trim s.toList)).getD (.zeroOf false)
  | .bool true => .ofNat 1
  | _ => .zeroOf false

/-- The label in a cell: a text as it is, nothing for null, any other value as JSON text. -/
def label : Json → String
  | .text s => s
  | .null => ""
  | other => other.render

def date? : Json → Option Date
  | .text s => DateEncoding.decode? s
  | .number n => DateEncoding.decode? (String.ofList n.text)
  | _ => none

end SnapshotAnalytics.Cell

import SnapshotAnalytics.Proofs.Json.Records
import SnapshotAnalytics.Proofs.Json.RoundTrip
import SnapshotAnalytics.Query.Result

/-!
# Reading written results

A result is read back from its text, as long as its cells are: what a cache stores is what it finds.
-/

namespace SnapshotAnalytics

open Json.Draft

theorem CellType.ofName?_name (type : CellType) : ofName? type.name = some type := by
  cases type <;> rfl

/-- A cell that can be read back from its text: it is not nested too deeply, and its draft stands for
itself. -/
structure Json.IsCell (cell : Json) : Prop where
  readable : cell.Readable 124
  value : (ofValue cell).value? = some cell

namespace Json.IsCell

theorem null : Json.null.IsCell :=
  ⟨⟨trivial, Nat.zero_le _⟩, rfl⟩

theorem text (s : String) : (Json.text s).IsCell :=
  ⟨.text s, rfl⟩

theorem ofNat (n : Nat) : (Json.ofNat n).IsCell :=
  ⟨.ofNat n, rfl⟩

end Json.IsCell

namespace QueryResult

theorem columnOfDraft?_columnToJson (c : Column) :
    columnOfDraft? (ofValue (columnToJson c)) = some c := by
  rw [columnOfDraft?, columnToJson, slots?_ofValue]
  simp [ofMembers, ofValue, Parts.slot?, Slot.required, text?, bool?, alternative?,
    c.type.ofName?_name]

/-- Columns, rows and cells are nested in three containers. -/
theorem readable_toJson {r : QueryResult} (hcells : ∀ row ∈ r.rows, ∀ cell ∈ row, cell.IsCell) :
    r.toJson.Readable 127 := by
  have hcolumn (c : Column) : (columnToJson c).Readable 125 := by
    apply Json.Readable.object
    simp only [List.forall_mem_cons, List.not_mem_nil, false_implies, implies_true, and_true]
    exact ⟨.text _, .text _, .bool _⟩
  have hcolumns : (Json.array (r.columns.map columnToJson)).Readable 126 := by
    apply Json.Readable.array
    intro j hj
    obtain ⟨c, _, rfl⟩ := List.mem_map.mp hj
    exact hcolumn c
  have hrows : (Json.array (r.rows.map .array)).Readable 126 := by
    apply Json.Readable.array
    intro j hj
    obtain ⟨row, hrow, rfl⟩ := List.mem_map.mp hj
    exact Json.Readable.array fun cell hcell => (hcells row hrow cell hcell).readable
  apply Json.Readable.object
  simp only [List.forall_mem_cons, List.not_mem_nil, false_implies, implies_true, and_true]
  exact ⟨hcolumns, hrows, .ofNat _, .ofNat _⟩

/-- **A result is read back from its text.** -/
theorem decode?_encode {r : QueryResult} (hcells : ∀ row ∈ r.rows, ∀ cell ∈ row, cell.IsCell)
    (hcount : r.rowCount < UInt64.size) (helapsed : r.elapsedMs < UInt64.size) :
    decode? r.encode = some r := by
  have hcolumns : list? columnOfDraft? (ofValue (.array (r.columns.map columnToJson))) =
      some r.columns :=
    list?_ofValue fun c _ => columnOfDraft?_columnToJson c
  have hrow : ∀ row ∈ r.rows, list? value? (ofValue (.array row)) = some row := by
    intro row hrow
    have hvalue : ∀ cell ∈ row, value? (ofValue (id cell)) = some cell :=
      fun cell hcell => (hcells row hrow cell hcell).value
    have hvalues := list?_ofValue hvalue
    rwa [List.map_id] at hvalues
  have hrows : list? (list? value?) (ofValue (.array (r.rows.map .array))) = some r.rows :=
    list?_ofValue hrow
  -- The four members are read whatever is in them, and then each is read as what it has to be.
  have hslots : (ofValue r.toJson).slots? ["columns", "rows", "row_count", "execution_time_ms"] =
      some [some (ofValue (.array (r.columns.map columnToJson))),
        some (ofValue (.array (r.rows.map .array))), some (ofValue (.ofNat r.rowCount)),
        some (ofValue (.ofNat r.elapsedMs))] := by
    simp [toJson, slots?_ofValue, ofMembers, Parts.slot?]
  rw [decode?, encode, Json.ofText?_render (readable_toJson hcells) (by decide), Option.bind_some,
    ofDraft?, hslots]
  simp [Slot.required, hcolumns, hrows, count?_ofNat hcount, count?_ofNat helapsed]

end QueryResult

end SnapshotAnalytics

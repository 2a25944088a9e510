import SnapshotAnalytics.Proofs.Data.Keyed
import SnapshotAnalytics.Query.Result

/-!
# Results read by cells and by records

A cell of a result is looked up by the place of its row and the name of its column, or in the record
that the row is read as. The two ways agree as long as no two columns have the same name, however long
the rows are: where a row is too short for a column, both find nothing. A result that is made of records
shows each of them under the names of its columns.
-/

namespace SnapshotAnalytics

namespace QueryResult

/-! ## §1 Cells -/

/-- Different names stand at different places. -/
theorem place_unique {names : List String} (hnames : names.Nodup) {name : String} {i j : Nat}
    (hi : names[i]? = some name) (hj : names[j]? = some name) : i = j := by
  obtain ⟨hlt, -⟩ := List.getElem?_eq_some_iff.mp hi
  exact (List.getElem?_inj hlt hnames).mp (hi.trans hj.symm)

theorem columnIndex?_eq (r : QueryResult) (name : String) :
    r.columnIndex? name = r.names.findIdx? (· == name) := by
  rw [columnIndex?, names, List.findIdx?_map]
  rfl

/-- Among different names a column is found exactly under its own. -/
theorem columnIndex?_eq_some_iff {r : QueryResult} (hnames : r.names.Nodup) {name : String}
    {j : Nat} : r.columnIndex? name = some j ↔ r.names[j]? = some name := by
  rw [columnIndex?_eq, List.findIdx?_eq_some_iff_getElem, List.getElem?_eq_some_iff]
  constructor
  · rintro ⟨hj, hname, -⟩
    exact ⟨hj, beq_iff_eq.mp hname⟩
  · rintro ⟨hj, hname⟩
    refine ⟨hj, beq_iff_eq.mpr hname, fun i hi hsame => ?_⟩
    -- No column before it has the same name.
    have heq := hnames.getElem_inj_iff.mp ((beq_iff_eq.mp hsame).trans hname.symm)
    exact absurd heq (Nat.ne_of_lt hi)

theorem cell?_eq_some_iff {r : QueryResult} (hnames : r.names.Nodup) {i : Nat} {name : String}
    {cell : Json} :
    r.cell? i name = some cell ↔ ∃ (row : List Json) (j : Nat),
      r.rows[i]? = some row ∧ r.names[j]? = some name ∧ row[j]? = some cell := by
  simp only [cell?, Option.bind_eq_bind, Option.bind_eq_some_iff, columnIndex?_eq_some_iff hnames]
  constructor
  · rintro ⟨j, hj, row, hrow, hcell⟩
    exact ⟨row, j, hrow, hj, hcell⟩
  · rintro ⟨row, j, hrow, hj, hcell⟩
    exact ⟨j, hj, row, hrow, hcell⟩

/-! ## §2 Records -/

theorem mem_zip_iff {names : List String} {row : List Json} {name : String} {cell : Json} :
    (name, cell) ∈ names.zip row ↔
      ∃ j : Nat, names[j]? = some name ∧ row[j]? = some cell := by
  simp only [List.mem_iff_getElem?, List.getElem?_zip_eq_some]

/-- Under a name a row read as a record has the cell at the place of the name. -/
theorem find?_ofList_zip {names : List String} (hnames : names.Nodup) {row : List Json}
    {name : String} {cell : Json} :
    Keyed.find? name (Keyed.ofList (names.zip row)) = some cell ↔
      ∃ j : Nat, names[j]? = some name ∧ row[j]? = some cell := by
  rw [Keyed.find?_ofList_eq_some_iff, mem_zip_iff]
  simp only [mem_zip_iff]
  rintro cell cell' ⟨j, hj, hcell⟩ ⟨j', hj', hcell'⟩
  obtain rfl := place_unique hnames hj hj'
  exact Option.some_inj.mp (hcell.symm.trans hcell')

/-- A record cut down to the given names, with null where it has nothing to put. -/
structure Restricts (names : List String) (record shown : Record) : Prop where
  ascending : Keyed.Ascending shown
  find? : ∀ name, Keyed.find? name shown =
    if name ∈ names then some ((Keyed.find? name record).getD .null) else none

theorem restricts_ofList_zip (names : List String) (record : Record) :
    Restricts names record (Keyed.ofList (names.zip (names.map (cellOf record)))) where
  ascending := .ofList _
  find? name := by
    have hzip : names.zip (names.map (cellOf record)) =
        names.map fun name => (name, cellOf record name) := by
      conv_lhs => rw [← List.map_id names, List.map_map, List.zip_map']
      rfl
    have hmem (cell : Json) : (name, cell) ∈ names.zip (names.map (cellOf record)) ↔
        name ∈ names ∧ cellOf record name = cell := by
      simp [hzip]
    ext cell
    rw [Keyed.find?_ofList_eq_some_iff, hmem]
    · split
      case isTrue h => rw [Option.some_inj, cellOf, and_iff_right h]
      case isFalse h => exact iff_of_false (fun hin => h hin.1) (Option.some_ne_none cell).symm
    · intro cell cell' h h'
      exact ((hmem cell).mp h).2.symm.trans ((hmem cell').mp h').2

/-! ## §3 Both ways -/

/-- **Cells and records agree.** A result made of records has a row for each of them, which is read as
the record cut down to the names of the columns. In every result whose columns have different names, a
cell is found by its row and its column exactly when the record of the row has it under that name. -/
theorem cells_agree :
    (∀ names records, (ofRecords names records).names = names ∧
      (ofRecords names records).rows.length = records.length ∧
      (ofRecords names records).rowCount = records.length ∧
      List.Forall₂ (Restricts names) records (ofRecords names records).records) ∧
    ∀ r : QueryResult, r.names.Nodup → ∀ i name cell,
      r.cell? i name = some cell ↔
        ∃ record, r.records[i]? = some record ∧ Keyed.find? name record = some cell := by
  refine ⟨fun names records => ?_, fun r hnames i name cell => ?_⟩
  · have hnames : (ofRecords names records).names = names := by
      rw [ofRecords, QueryResult.names, ofRows, List.map_map]
      exact List.map_id names
    refine ⟨hnames, List.length_map _, List.length_map _, ?_⟩
    rw [QueryResult.records, hnames, ofRecords, ofRows, List.map_map, List.forall₂_map_right_iff]
    exact List.forall₂_same.mpr fun record _ => restricts_ofList_zip names record
  · -- The record of a row is its names beside its cells, and each name stands at one place.
    rw [cell?_eq_some_iff hnames]
    simp only [QueryResult.records, List.getElem?_map, Option.map_eq_some_iff]
    constructor
    · rintro ⟨row, j, hrow, hj, hcell⟩
      exact ⟨_, ⟨row, hrow, rfl⟩, (find?_ofList_zip hnames).mpr ⟨j, hj, hcell⟩⟩
    · rintro ⟨_, ⟨row, hrow, rfl⟩, hfound⟩
      obtain ⟨j, hj, hcell⟩ := (find?_ofList_zip hnames).mp hfound
      exact ⟨row, j, hrow, hj, hcell⟩

/-- Rows that are shorter and longer than the list of columns. -/
def ragged : QueryResult :=
  .ofRows [⟨"desk", .string, true⟩, ⟨"trades", .natural, true⟩]
    [[.text "EQ"], [.text "FX", .ofNat 3, .null], []] 0

theorem cells_agree_ragged :
    ragged.names.Nodup ∧
      (∃ record, ragged.records[1]? = some record ∧
        Keyed.find? "trades" record = some (.ofNat 3)) ∧
      ∀ cell, ¬ ∃ record, ragged.records[0]? = some record ∧
        Keyed.find? "trades" record = some cell := by
  have hnames : ragged.names.Nodup := by decide
  refine ⟨hnames, (cells_agree.2 ragged hnames 1 "trades" _).mp rfl, fun cell hfound => ?_⟩
  cases (cells_agree.2 ragged hnames 0 "trades" cell).mpr hfound

end QueryResult

end SnapshotAnalytics

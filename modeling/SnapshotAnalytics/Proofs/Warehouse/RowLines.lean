import SnapshotAnalytics.Proofs.Cache.StoredResults
import SnapshotAnalytics.Proofs.Data.Readings
import SnapshotAnalytics.Proofs.Text.Lines
import SnapshotAnalytics.Warehouse.Rows

/-!
# What an answer of the warehouse says

An answer is read when each of its lines that is not blank holds a JSON object, and the result then is
the table of these objects: a row for each of them, the columns of the first one, null where an object
has nothing to put. How a single line is decoded is a matter of JSON, where white space behind a value
does not count; so the carriage return that may end a line is not seen.
-/

namespace SnapshotAnalytics

/-! ## §1 Tables of records -/

namespace QueryResult

/-- A result shows records as a table: the columns are the keys of the first record, a row for each
record has its value in each column, or null, and no record is changed if all have the same keys. -/
structure Tabulates (r : QueryResult) (records : List Record) : Prop where
  names_nodup : r.names.Nodup
  mem_names : ∀ name, name ∈ r.names ↔ ∃ first ∈ records.head?, name ∈ first.map (·.1)
  length_rows : r.rows.length = records.length
  length_row : ∀ row ∈ r.rows, row.length = r.columns.length
  rowCount : r.rowCount = records.length
  cell : ∀ i record, records[i]? = some record → ∀ name ∈ r.names,
    r.cell? i name = some ((Keyed.find? name record).getD .null)
  records : (∀ record ∈ records, ∀ name, name ∈ record.map (·.1) ↔ name ∈ r.names) →
    r.records = records

/-- A name of a column leads to a column of that name. -/
theorem exists_columnIndex? {r : QueryResult} {name : String} (h : name ∈ r.names) :
    ∃ j, r.columnIndex? name = some j ∧ r.names[j]? = some name := by
  obtain ⟨column, hcolumn, rfl⟩ := List.mem_map.mp h
  cases hindex : r.columnIndex? column.name with
  | none =>
    have hne := List.findIdx?_eq_none_iff.mp hindex column hcolumn
    simp at hne
  | some j =>
    obtain ⟨hj, hname, -⟩ := List.findIdx?_eq_some_iff_getElem.mp hindex
    refine ⟨j, rfl, ?_⟩
    rw [names, List.getElem?_map, List.getElem?_eq_getElem hj, Option.map_some,
      beq_iff_eq.mp hname]

end QueryResult

/-- The members of a record are its keys, each with the cell under it. -/
theorem QueryResult.zip_cellOf {record : Record} (h : Keyed.Ascending record) :
    (record.map (·.1)).zip ((record.map (·.1)).map (cellOf record)) = record := by
  rw [List.map_map, List.zip_map']
  conv_rhs => rw [← List.map_id record]
  refine List.map_congr_left fun (name, cell) hmember => ?_
  rw [Function.comp, cellOf, (Keyed.find?_eq_some_iff h).mpr hmember, Option.getD_some, id]

namespace Warehouse

open QueryResult

theorem names_resultOfRecords (elapsedMs : Nat) (records : List Record) :
    (resultOfRecords elapsedMs records).names = (records.headD []).map (·.1) := by
  cases records with
  | nil => rfl
  | cons first records =>
    rw [resultOfRecords, names, ofRows, List.map_map]
    rfl

theorem rows_resultOfRecords (elapsedMs : Nat) (records : List Record) :
    (resultOfRecords elapsedMs records).rows =
      records.map fun record => (resultOfRecords elapsedMs records).names.map (cellOf record) := by
  rw [names_resultOfRecords]
  cases records <;> rfl

theorem rowCount_resultOfRecords (elapsedMs : Nat) (records : List Record) :
    (resultOfRecords elapsedMs records).rowCount = records.length := by
  cases records with
  | nil => rfl
  | cons first records => exact List.length_map _

theorem elapsedMs_resultOfRecords (elapsedMs : Nat) (records : List Record) :
    (resultOfRecords elapsedMs records).elapsedMs = elapsedMs := by
  cases records <;> rfl

/-- Records that have the keys of the columns are read from the rows as they were. -/
theorem records_resultOfRecords {elapsedMs : Nat} {records : List Record}
    (hascending : ∀ record ∈ records, Keyed.Ascending record)
    (hkeys : ∀ record ∈ records, ∀ name,
      name ∈ record.map (·.1) ↔ name ∈ (resultOfRecords elapsedMs records).names) :
    (resultOfRecords elapsedMs records).records = records := by
  have hordered : (resultOfRecords elapsedMs records).names.Pairwise fun k k' => compare k k' = .lt := by
    rw [names_resultOfRecords]
    cases records with
    | nil => exact .nil
    | cons first records => exact List.pairwise_map.mpr (hascending first List.mem_cons_self)
  rw [QueryResult.records, rows_resultOfRecords, List.map_map]
  conv_rhs => rw [← List.map_id records]
  refine List.map_congr_left fun record hrecord => ?_
  -- Ascending keys are determined by which keys there are.
  have hnames : record.map (·.1) = (resultOfRecords elapsedMs records).names :=
    Keyed.eq_of_ascending (List.pairwise_map.mpr (hascending record hrecord)) hordered
      (hkeys record hrecord)
  rw [Function.comp, ← hnames, zip_cellOf (hascending record hrecord),
    Keyed.ofList_eq_self (hascending record hrecord), id]

theorem tabulates_resultOfRecords {elapsedMs : Nat} {records : List Record}
    (hascending : ∀ record ∈ records, Keyed.Ascending record) :
    (resultOfRecords elapsedMs records).Tabulates records where
  names_nodup := by
    rw [names_resultOfRecords]
    cases records with
    | nil => exact .nil
    | cons first records =>
      exact Keyed.nodup_of_ascending (List.pairwise_map.mpr (hascending first List.mem_cons_self))
  mem_names name := by
    rw [names_resultOfRecords]
    cases records <;> simp
  length_rows := by rw [rows_resultOfRecords, List.length_map]
  length_row row hrow := by
    rw [rows_resultOfRecords] at hrow
    obtain ⟨record, -, rfl⟩ := List.mem_map.mp hrow
    rw [List.length_map, names, List.length_map]
  rowCount := rowCount_resultOfRecords elapsedMs records
  cell i record hrecord name hname := by
    obtain ⟨j, hindex, hj⟩ := exists_columnIndex? hname
    have hrow : (resultOfRecords elapsedMs records).rows[i]? =
        some ((resultOfRecords elapsedMs records).names.map (cellOf record)) := by
      rw [rows_resultOfRecords, List.getElem?_map, hrecord, Option.map_some]
    rw [cell?, hindex, hrow]
    show ((resultOfRecords elapsedMs records).names.map (cellOf record))[j]? = _
    rw [List.getElem?_map, hj, Option.map_some, cellOf]
  records := records_resultOfRecords hascending

/-! ## §2 Lines as records -/

/-- A line holds a JSON object with these members. -/
def Decodes (line : List Char) (record : Record) : Prop :=
  Json.read? (String.ofList line) = some (.object record)

theorem recordOfLine?_eq_some_iff {line : List Char} {record : Record} :
    recordOfLine? line = some record ↔ Decodes line record := by
  have hread : Json.read? (String.ofList line) =
      (Json.Draft.ofChars? line).bind Json.Draft.value? := by
    rw [Json.read?, Json.Draft.ofText?, String.toList_ofList]
  rw [Decodes, recordOfLine?, hread]
  split
  case h_1 members h => rw [h, Option.some_inj, Option.some_inj, Json.object.injEq]
  case h_2 h => exact iff_of_false (Option.some_ne_none record).symm (h record)

theorem recordOfLine?_eq_none_iff {line : List Char} :
    recordOfLine? line = none ↔ ∀ record, ¬ Decodes line record := by
  simp only [Option.eq_none_iff_forall_ne_some, Ne, recordOfLine?_eq_some_iff]

theorem recordOfLine?_concat_return (line : List Char) :
    recordOfLine? (line ++ ['\r']) = recordOfLine? line := by
  rw [recordOfLine?, Json.Draft.ofChars?, Json.tokens?_concat_space (by decide),
    ← Json.Draft.ofChars?, ← recordOfLine?]

theorem Decodes.ascending {line : List Char} {record : Record} (h : Decodes line record) :
    Keyed.Ascending record := by
  obtain ⟨draft, -, hvalue⟩ := Option.bind_eq_some_iff.mp h
  exact (Json.isOrdered_of_value? hvalue).1

/-! ## §3 Answers -/

theorem rowLines_eq (body : String) : rowLines body = Text.filledLines body.toList :=
  List.filter_congr fun line _ => by rw [Text.isEmpty_trim, Bool.not_not]

/-- What is read from a line: nothing from a blank one, from another one its record, if it holds one. -/
def reading? (line : List Char) : Option (Option Record) :=
  if Text.isFilled line then some (recordOfLine? line) else none

theorem mapM_rowLines (body : String) :
    (rowLines body).mapM recordOfLine? = ((Text.lines body.toList).filterMap reading?).mapM id := by
  have hreadings : (Text.lines body.toList).filterMap reading? =
      (rowLines body).map recordOfLine? := by
    rw [rowLines_eq, Text.filledLines, ← List.filterMap_eq_map, List.filterMap_filter]
    rfl
  rw [hreadings, List.mapM_map]
  rfl

section

variable {complaint : List Char → String} {elapsedMs : Nat}

theorem recordOfLine_of_some {line : List Char} {record : Record}
    (h : recordOfLine? line = some record) : recordOfLine complaint line = .ok record := by
  rw [recordOfLine, h]

theorem recordOfLine_of_none {line : List Char} (h : recordOfLine? line = none) :
    recordOfLine complaint line =
      .error (.serialization s!"failed to parse JSON row: {complaint line}") := by
  rw [recordOfLine, h]

/-- Which records there are does not depend on the complaints. -/
theorem toOption_mapM_recordOfLine (complaint : List Char → String) (lines : List (List Char)) :
    (lines.mapM (recordOfLine complaint)).toOption = lines.mapM recordOfLine? := by
  induction lines with
  | nil => rfl
  | cons line lines ih =>
    rw [List.mapM_cons, List.mapM_cons, ← ih]
    cases h : recordOfLine? line with
    | none =>
      rw [recordOfLine_of_none h]
      rfl
    | some record =>
      rw [recordOfLine_of_some h]
      cases lines.mapM (recordOfLine complaint) <;> rfl

theorem toOption_readRows (complaint : List Char → String) (elapsedMs : Nat) (body : String) :
    (readRows complaint elapsedMs body).toOption =
      ((rowLines body).mapM recordOfLine?).map (resultOfRecords elapsedMs) := by
  rw [readRows, ← toOption_mapM_recordOfLine complaint]
  cases (rowLines body).mapM (recordOfLine complaint) <;> rfl

/-- The error is that of the first line that holds no object. -/
theorem exists_of_mapM_eq_error {lines : List (List Char)} {err : QueryError}
    (h : lines.mapM (recordOfLine complaint) = .error err) :
    ∃ front line back, lines = front ++ line :: back ∧
      (∀ decoded ∈ front, ∃ record, Decodes decoded record) ∧ (∀ record, ¬ Decodes line record) ∧
      err = .serialization s!"failed to parse JSON row: {complaint line}" := by
  induction lines with
  | nil => cases h
  | cons line lines ih =>
    rw [List.mapM_cons] at h
    -- The line in front ends the reading if it holds no object, and goes before the others if it
    -- does.
    cases hline : recordOfLine? line with
    | none =>
      rw [recordOfLine_of_none hline] at h
      cases h
      exact ⟨[], line, lines, rfl, nofun, recordOfLine?_eq_none_iff.mp hline, rfl⟩
    | some record =>
      rw [recordOfLine_of_some hline] at h
      cases hrest : lines.mapM (recordOfLine complaint) with
      | ok records =>
        rw [hrest] at h
        cases h
      | error err' =>
        rw [hrest] at h
        cases h
        obtain ⟨front, bad, back, rfl, hfront, hbad, hwording⟩ := ih hrest
        have hdecoded : ∃ record, Decodes line record :=
          ⟨record, recordOfLine?_eq_some_iff.mp hline⟩
        exact ⟨line :: front, bad, back, rfl, List.forall_mem_cons.mpr ⟨hdecoded, hfront⟩, hbad,
          hwording⟩

/-- An answer says the same whatever blank lines are in it and whichever ends its lines have. -/
theorem toOption_readRows_ofLines (ended : List (List Char × Text.LineEnd)) (last : List Char) :
    (readRows complaint elapsedMs (String.ofList (Text.ofLines ended last))).toOption =
      (readRows complaint elapsedMs (String.ofList
        (['\n'].intercalate ((ended.map (·.1) ++ [last]).filter Text.isFilled)))).toOption := by
  have hreturn (line : List Char) : reading? (line ++ ['\r']) = reading? line := by
    rw [reading?, Text.isFilled_concat_return, recordOfLine?_concat_return, ← reading?]
  have hblank (line : List Char) (h : Text.isFilled line = false) : reading? line = none := by
    rw [reading?, h]
    rfl
  rw [toOption_readRows, toOption_readRows, mapM_rowLines, mapM_rowLines, String.toList_ofList,
    String.toList_ofList, Text.filterMap_lines_ofLines hreturn hblank]

theorem exists_readRows_eq_error_iff {body : String} :
    (∃ e, readRows complaint elapsedMs body = .error e) ↔
      ∃ line ∈ Text.filledLines body.toList, ∀ record, ¬ Decodes line record := by
  simp only [← recordOfLine?_eq_none_iff]
  rw [← rowLines_eq, ← Readings.mapM_eq_none_iff,
    ← Option.map_eq_none_iff (f := resultOfRecords elapsedMs), ← toOption_readRows complaint]
  cases readRows complaint elapsedMs body <;> simp [Except.toOption]

end

theorem forall₂_decodes {body : String} {records : List Record}
    (h : (rowLines body).mapM recordOfLine? = some records) :
    List.Forall₂ Decodes (Text.filledLines body.toList) records := by
  rw [← rowLines_eq]
  exact (Readings.mapM_eq_some_iff.mp h).imp fun _ _ => recordOfLine?_eq_some_iff.mp

theorem ascending_of_mapM {lines : List (List Char)} {records : List Record}
    (h : lines.mapM recordOfLine? = some records) : ∀ record ∈ records, Keyed.Ascending record := by
  intro record hrecord
  obtain ⟨line, -, hline⟩ := Readings.exists_item_of_mapM h hrecord
  exact (recordOfLine?_eq_some_iff.mp hline).ascending

/-- **Answers are read faithfully.** Reading an answer fails exactly when one of its lines that are not
blank holds no JSON object, and the error is about the first such line. Otherwise the result is the
table of the objects on these lines, in their order. Neither blank lines nor the ends of the lines make
any difference to the result. -/
theorem readRows_faithful (complaint : List Char → String) (elapsedMs : Nat) :
    (∀ body, (∃ e, readRows complaint elapsedMs body = .error e) ↔
      ∃ line ∈ Text.filledLines body.toList, ∀ record, ¬ Decodes line record) ∧
    (∀ body,
      (∃ front line back, Text.filledLines body.toList = front ++ line :: back ∧
        (∀ decoded ∈ front, ∃ record, Decodes decoded record) ∧
        (∀ record, ¬ Decodes line record) ∧
        readRows complaint elapsedMs body =
          .error (.serialization s!"failed to parse JSON row: {complaint line}")) ∨
      ∃ r records, readRows complaint elapsedMs body = .ok r ∧ r.elapsedMs = elapsedMs ∧
        List.Forall₂ Decodes (Text.filledLines body.toList) records ∧ r.Tabulates records) ∧
    ∀ ended last,
      (readRows complaint elapsedMs (String.ofList (Text.ofLines ended last))).toOption =
        (readRows complaint elapsedMs (String.ofList
          (['\n'].intercalate ((ended.map (·.1) ++ [last]).filter Text.isFilled)))).toOption := by
  refine ⟨fun body => exists_readRows_eq_error_iff, fun body => ?_, toOption_readRows_ofLines⟩
  -- Either some line is refused, and then the first of them, or every line has a record.
  cases h : (rowLines body).mapM (recordOfLine complaint) with
  | error err =>
    obtain ⟨front, line, back, hlines, hfront, hline, rfl⟩ := exists_of_mapM_eq_error h
    rw [rowLines_eq] at hlines
    refine Or.inl ⟨front, line, back, hlines, hfront, hline, ?_⟩
    rw [readRows, h]
    rfl
  | ok records =>
    have hrecords : (rowLines body).mapM recordOfLine? = some records := by
      rw [← toOption_mapM_recordOfLine complaint, h]
      rfl
    refine Or.inr ⟨resultOfRecords elapsedMs records, records, ?_,
      elapsedMs_resultOfRecords elapsedMs records, forall₂_decodes hrecords,
      tabulates_resultOfRecords (ascending_of_mapM hrecords)⟩
    rw [readRows, h]
    rfl

end Warehouse

end SnapshotAnalytics

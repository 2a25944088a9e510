import SnapshotAnalytics.Proofs.Data.Checks
import SnapshotAnalytics.Proofs.Table.Schema
import SnapshotAnalytics.Settings.Check

/-!
# Schemas of configured tables

The schema of a table is declared in steps: the date column, the fields, and the column of maturity
dates last. Whatever the steps overwrite, the schema has the columns of the settings and no others.
Settings are checked by rules of their own before a schema is made of them, and a schema is checked
again when it is registered; the two sets of rules agree on every name.
-/

namespace SnapshotAnalytics

open Checks

/-! ## §1 Names of tables -/

namespace Text

theorem isIdentifierText_of_mem_point {s : List Char} (h : '.' ∈ s) : isIdentifierText s = false := by
  apply Bool.eq_false_iff.mpr
  intro hs
  have hpart : isIdentifierPart '.' = true := isIdentifierPart_of_mem hs h
  simp [isIdentifierPart] at hpart

/-- A text with a separator has more than one piece. -/
theorem two_le_length_splitOn {separator : Char} {s : List Char} (h : separator ∈ s) :
    2 ≤ (splitOn separator s).length := by
  cases hcut : cutAt? separator s with
  | none => exact absurd h (not_mem_of_cutAt?_eq_none hcut)
  | some cut =>
    have hrest := List.length_pos_iff.mpr (splitOn_ne_nil separator cut.2)
    rw [splitOn_of_cutAt?_eq_some hcut, List.length_cons]
    omega

end Text

namespace Settings

/-- **A name that is cut at its first point is judged like one that is cut at all of them**: behind
the first point another one would be part of an identifier. -/
theorem isTableName_eq (name : String) : isTableName name = Text.isTableIdentifier name := by
  unfold isTableName Text.isTableIdentifier
  cases hcut : Text.cutAt? '.' name.toList with
  | none =>
    have hwhole := Text.splitOn_of_not_mem (Text.not_mem_of_cutAt?_eq_none hcut)
    simp [hwhole]
  | some cut =>
    obtain ⟨database, table⟩ := cut
    simp only [Text.splitOn_of_cutAt?_eq_some hcut]
    by_cases hpoint : '.' ∈ table
    · -- There are more than two parts, and the part behind the first point is no identifier.
      have hparts := Text.two_le_length_splitOn hpoint
      have hmany : ¬ (database :: Text.splitOn '.' table).length ≤ 2 := by
        rw [List.length_cons]
        omega
      simp only [Text.isIdentifierText_of_mem_point hpoint, hmany, Bool.and_false, decide_false,
        Bool.false_and]
    · simp [Text.splitOn_of_not_mem hpoint]

end Settings

/-! ## §2 Declared columns -/

namespace TableSchema

variable {u : TableSchema} {field : String}

theorem withFields_eq (u : TableSchema) (fields : List (String × FieldKind)) :
    u.withFields fields =
      { u with fields := fields.foldl (fun m e => Keyed.insert e.1 e.2 m) u.fields } := by
  induction fields generalizing u with
  | nil => rfl
  | cons field fields ih =>
    show (u.withField field.1 field.2).withFields fields = _
    rw [ih]
    rfl

theorem Declared.withFields (h : u.Declared) (fields : List (String × FieldKind)) :
    (u.withFields fields).Declared := by
  induction fields generalizing u with
  | nil => exact h
  | cons field fields ih => exact ih (h.withField field.1 field.2)

theorem mem_keys_withFields {fields : List (String × FieldKind)} :
    field ∈ (u.withFields fields).fields.map (·.1) ↔
      field ∈ u.fields.map (·.1) ∨ field ∈ fields.map (·.1) := by
  induction fields generalizing u with
  | nil => simp [TableSchema.withFields]
  | cons first fields ih =>
    show field ∈ ((u.withField first.1 first.2).withFields fields).fields.map (·.1) ↔ _
    rw [ih, List.map_cons, List.mem_cons]
    simp only [withField, Keyed.mem_keys_insert]
    tauto

/-! ## §3 Checked schemas -/

/-- What the check of a schema finds: a name that is no identifier, first that of the table. -/
theorem check_cases (u : TableSchema) :
    (Text.isTableIdentifier u.name = false ∧ u.check = .error (.badTableName u.name)) ∨
    (∃ field, Text.isIdentifier field = false ∧ field ∈ u.fields.map (·.1) ∧
      u.check = .error (.badFieldName u.name field)) ∨
    (Text.isTableIdentifier u.name = true ∧
      (∀ field ∈ u.fields.map (·.1), Text.isIdentifier field = true) ∧ u.check = .ok ()) := by
  cases hname : Text.isTableIdentifier u.name with
  | false => exact Or.inl ⟨rfl, by simp [check, hname]⟩
  | true =>
    right
    -- The first name that is no identifier is the one that the error names.
    cases hfind : u.fields.find? fun field => !Text.isIdentifier field.1 with
    | some field =>
      have hfield : Text.isIdentifier field.1 = false := by
        simpa using List.find?_some hfind
      have hmem : field.1 ∈ u.fields.map (·.1) :=
        List.mem_map_of_mem (List.mem_of_find?_eq_some hfind)
      exact Or.inl ⟨field.1, hfield, hmem, by simp [check, hname, hfind]⟩
    | none =>
      refine Or.inr ⟨rfl, fun field hfield => ?_, by simp [check, hname, hfind]⟩
      obtain ⟨entry, hentry, rfl⟩ := List.mem_map.mp hfield
      simpa using List.find?_eq_none.mp hfind entry hentry

theorem check_eq_ok_iff :
    u.check = .ok () ↔ Text.isTableIdentifier u.name = true ∧
      ∀ field ∈ u.fields.map (·.1), Text.isIdentifier field = true := by
  rcases u.check_cases with ⟨hname, hcheck⟩ | ⟨field, hfield, hmem, hcheck⟩ | ⟨hname, hfields, hcheck⟩
  · simp [hcheck, hname]
  · rw [hcheck]
    refine ⟨nofun, fun h => ?_⟩
    rw [h.2 field hmem] at hfield
    cases hfield
  · exact ⟨fun _ => ⟨hname, hfields⟩, fun _ => hcheck⟩

/-- The name that a schema is refused for is no identifier. -/
theorem isTableIdentifier_of_badTableName {name : String}
    (h : u.check = .error (.badTableName name)) : Text.isTableIdentifier name = false := by
  rcases u.check_cases with ⟨hname, hcheck⟩ | ⟨_, _, _, hcheck⟩ | ⟨_, _, hcheck⟩
  all_goals rw [h] at hcheck; cases hcheck
  exact hname

theorem isIdentifier_of_badFieldName {table : String}
    (h : u.check = .error (.badFieldName table field)) : Text.isIdentifier field = false := by
  rcases u.check_cases with ⟨_, hcheck⟩ | ⟨_, hfield, _, hcheck⟩ | ⟨_, _, hcheck⟩
  all_goals rw [h] at hcheck; cases hcheck
  exact hfield

end TableSchema

/-! ## §4 Schemas of settings -/

/-- The columns that the settings of a table name. -/
def TableSettings.columns (t : TableSettings) : List String :=
  t.dateColumn :: t.maturityColumn.toList ++ t.fields.map (·.1)

theorem TableSettings.mem_columns {t : TableSettings} {column : String} :
    column ∈ t.columns ↔
      column = t.dateColumn ∨ t.maturityColumn = some column ∨ column ∈ t.fields.map (·.1) := by
  simp [columns]

/-- A schema that has the name, the columns and the encoding that settings give it. -/
structure TableSchema.Follows (u : TableSchema) (name : String) (t : TableSettings) : Prop where
  name : u.name = name
  dateColumn : u.dateColumn = t.dateColumn
  encoding : u.encoding = t.encoding
  maturityColumn : u.maturityColumn = t.maturityColumn
  fields : ∀ field, field ∈ u.fields.map (·.1) ↔ field ∈ t.columns
  required : ∀ field, u.require field = .ok () ↔ field ∈ t.columns

namespace Settings

variable {name : String} {t : TableSettings}

theorem schema_declared : (schema name t).Declared := by
  have hdeclared :=
    (TableSchema.Declared.ofDateColumn name t.dateColumn t.encoding).withFields t.fields
  unfold schema
  cases t.maturityColumn with
  | none => exact hdeclared
  | some column => exact hdeclared.withMaturityColumn column

theorem mem_keys_schema {field : String} :
    field ∈ (schema name t).fields.map (·.1) ↔ field ∈ t.columns := by
  have hdeclared : field ∈
      ((TableSchema.ofDateColumn name t.dateColumn t.encoding).withFields t.fields).fields.map
        (·.1) ↔ field = t.dateColumn ∨ field ∈ t.fields.map (·.1) := by
    rw [TableSchema.mem_keys_withFields]
    simp [TableSchema.ofDateColumn]
  rw [TableSettings.mem_columns]
  unfold schema
  cases t.maturityColumn with
  | none => simpa using hdeclared
  | some column =>
    simp only [TableSchema.withMaturityColumn, TableSchema.withField, Keyed.mem_keys_insert,
      hdeclared, Option.some.injEq, eq_comm (a := column)]
    tauto

/-- **A schema follows its settings**, in whatever order its columns are declared. -/
theorem schema_follows (name : String) (t : TableSettings) : (schema name t).Follows name t := by
  have hparts : (schema name t).name = name ∧ (schema name t).dateColumn = t.dateColumn ∧
      (schema name t).encoding = t.encoding ∧
      (schema name t).maturityColumn = t.maturityColumn := by
    unfold schema
    cases t.maturityColumn with
    | none => simp [TableSchema.withFields_eq, TableSchema.ofDateColumn]
    | some column =>
      simp [TableSchema.withFields_eq, TableSchema.ofDateColumn, TableSchema.withMaturityColumn,
        TableSchema.withField]
  obtain ⟨hname, hdateColumn, hencoding, hmaturityColumn⟩ := hparts
  have hfields (field : String) : field ∈ (schema name t).fields.map (·.1) ↔ field ∈ t.columns :=
    mem_keys_schema
  refine ⟨hname, hdateColumn, hencoding, hmaturityColumn, hfields, fun field => ?_⟩
  rw [TableSchema.require_eq_ok_iff, hfields]

theorem checkMaturity_eq_ok_iff {column : String} :
    checkMaturity name t column = .ok () ↔ Text.isIdentifier column = true ∧
      ∀ kind, Keyed.find? column t.fields = some kind → kind = .date := by
  unfold checkMaturity
  cases hcolumn : Text.isIdentifier column with
  | false => simp
  | true =>
    cases hfind : Keyed.find? column t.fields with
    | none => simp
    | some kind => by_cases hkind : kind = .date <;> simp [hkind]

/-- The check of a table: its name and its columns are identifiers, and its column of maturity dates
is not declared to be anything but a date. -/
theorem checkTable_eq_ok_iff :
    checkTable name t = .ok () ↔ isTableName name = true ∧
      (∀ column ∈ t.columns, Text.isIdentifier column = true) ∧
      ∀ column ∈ t.maturityColumn, ∀ kind,
        Keyed.find? column t.fields = some kind → kind = .date := by
  simp only [checkTable, bind_eq_ok, refuse_eq_ok, TableSettings.mem_columns]
  constructor
  · rintro ⟨hname, _, hdateColumn, ⟨⟩, hmaturity, hfields⟩
    -- The fields are checked last, and none of them was found to be bad.
    split at hfields
    · cases hfields
    · rename_i hfind
      have hmaturity (column : String) (hcolumn : t.maturityColumn = some column) :=
        checkMaturity_eq_ok_iff.mp (optionForM_eq_ok.mp hmaturity column hcolumn)
      refine ⟨by simpa using hname, ?_, fun column hcolumn => (hmaturity column hcolumn).2⟩
      rintro column (rfl | hcolumn | hcolumn)
      · simpa using hdateColumn
      · exact (hmaturity column hcolumn).1
      · obtain ⟨field, hfield, rfl⟩ := List.mem_map.mp hcolumn
        simpa using List.find?_eq_none.mp hfind field hfield
  · rintro ⟨hname, hcolumns, hkinds⟩
    have hdateColumn := hcolumns t.dateColumn (Or.inl rfl)
    -- An empty name is no identifier, so the check for it finds nothing that the next does not.
    have hnonempty : ¬ t.dateColumn.isEmpty = true := by
      intro hempty
      rw [String.isEmpty_iff.mp hempty] at hdateColumn
      simp [Text.isIdentifier, Text.isIdentifierText] at hdateColumn
    have hmaturity : t.maturityColumn.forM (checkMaturity name t) = .ok () :=
      optionForM_eq_ok.mpr fun column hcolumn =>
        checkMaturity_eq_ok_iff.mpr ⟨hcolumns column (.inr (.inl hcolumn)), hkinds column hcolumn⟩
    have hfind : (t.fields.find? fun field => !Text.isIdentifier field.1) = none := by
      refine List.find?_eq_none.mpr fun field hfield => ?_
      simp [hcolumns field.1 (.inr (.inr (List.mem_map_of_mem hfield)))]
    exact ⟨by simp [hname], hnonempty, by simp [hdateColumn], (), hmaturity, by rw [hfind]; rfl⟩

/-- **Settings and schemas are checked alike**: a table passes its check exactly when its schema can
be registered and its column of maturity dates is not declared to be anything but a date. -/
theorem checkTable_eq_ok_iff_check :
    checkTable name t = .ok () ↔ (schema name t).check = .ok () ∧
      ∀ column ∈ t.maturityColumn, ∀ kind,
        Keyed.find? column t.fields = some kind → kind = .date := by
  rw [checkTable_eq_ok_iff, TableSchema.check_eq_ok_iff, (schema_follows name t).name,
    isTableName_eq, and_assoc]
  simp only [mem_keys_schema]

end Settings

end SnapshotAnalytics

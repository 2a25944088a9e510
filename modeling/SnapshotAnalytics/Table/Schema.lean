import SnapshotAnalytics.Data.Keyed
import SnapshotAnalytics.Error
import SnapshotAnalytics.Query.Statement
import SnapshotAnalytics.Table.Field
import SnapshotAnalytics.Text.Identifier

/-!
# Table schemas

A table has a name, a column with the dates of its snapshots, fields of declared kinds, and possibly
a column with dates of maturity. Only declared fields can be asked for, and only tables whose names
are plain identifiers can be registered.
-/

namespace SnapshotAnalytics

/-- A table: its fields are listed in ascending order, the date columns among them. -/
structure TableSchema where
  name : String
  dateColumn : String
  encoding : DateEncoding
  maturityColumn : Option String
  fields : List (String × FieldKind)
  deriving DecidableEq

namespace TableSchema

/-! ## §1 Declaring tables -/

def ofDateColumn (name dateColumn : String) (encoding : DateEncoding) : TableSchema :=
  ⟨name, dateColumn, encoding, none, [(dateColumn, encoding.kind)]⟩

def withField (t : TableSchema) (name : String) (kind : FieldKind) : TableSchema :=
  { t with fields := Keyed.insert name kind t.fields }

/-- Declare fields, one after the other. -/
def withFields (t : TableSchema) (fields : List (String × FieldKind)) : TableSchema :=
  fields.foldl (fun t field => t.withField field.1 field.2) t

def withMaturityColumn (t : TableSchema) (name : String) : TableSchema :=
  { t.withField name .date with maturityColumn := some name }

/-- Check that the table and its fields are named by identifiers. -/
def check (t : TableSchema) : Except AnalyticsError Unit :=
  if !Text.isTableIdentifier t.name then
    .error (.badTableName t.name)
  else
    match t.fields.find? fun field => !Text.isIdentifier field.1 with
    | some field => .error (.badFieldName t.name field.1)
    | none => .ok ()

/-! ## §2 Using tables -/

def kindOf (t : TableSchema) (field : String) : Except AnalyticsError FieldKind :=
  match Keyed.find? field t.fields with
  | some kind => .ok kind
  | none => .error (.unknownField t.name field)

def require (t : TableSchema) (field : String) : Except AnalyticsError Unit :=
  discard (t.kindOf field)

def dateParameter (t : TableSchema) (name : String) (d : Date) : Parameter :=
  ⟨name, t.encoding.parameterType, t.encoding.encode d⟩

def dateCondition (t : TableSchema) (symbol name : String) (d : Date) : Fragment :=
  .comparison t.dateColumn symbol (t.dateParameter name d)

end TableSchema

/-! ## §3 Registries -/

/-- The tables that can be asked for, by their names in ascending order. -/
abbrev TableRegistry := List (String × TableSchema)

namespace TableRegistry

/-- Register a table, in place of one with the same name. -/
def register (tables : TableRegistry) (t : TableSchema) : Except AnalyticsError TableRegistry := do
  t.check
  return Keyed.insert t.name t tables

def table (tables : TableRegistry) (name : String) : Except AnalyticsError TableSchema :=
  match Keyed.find? name tables with
  | some t => .ok t
  | none => .error (.unknownTable name)

def names (tables : TableRegistry) : List String :=
  tables.map (·.1)

end TableRegistry

end SnapshotAnalytics

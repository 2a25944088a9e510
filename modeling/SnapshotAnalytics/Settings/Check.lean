import SnapshotAnalytics.Settings.Basic

/-!
# Checking settings

Settings that can be read are checked before they are used: the warehouse is of the known kind, the
keyspace of the cache cannot be mistaken for a pattern, answers are kept for some time, and tables,
columns and fields are named by identifiers. The first mistake found is reported.
-/

namespace SnapshotAnalytics

/-! ## §1 Mistakes -/

/-- What is wrong with settings. -/
inductive SettingsError where
  | unreadable
  | unknownBackend (name : String)
  | emptyKeyspace
  | badKeyspace
  | noLifetime (name : String)
  | badTableName (table : String)
  | emptyDateColumn (table : String)
  | badDateColumn (table column : String)
  | badMaturityColumn (table column : String)
  | maturityNotADate (table column : String) (kind : FieldKind)
  | badField (table field : String)
  deriving DecidableEq

namespace SettingsError

def kindWord : FieldKind → String
  | .text => "Text"
  | .number => "Number"
  | .date => "Date"

def message : SettingsError → String
  | unreadable => "failed to parse config: not a document of settings"
  | unknownBackend name =>
    s!"query 'backend' has invalid backend: unsupported backend '{name}', expected 'clickhouse'"
  | emptyKeyspace => "cache 'cache' is missing required field 'namespace'"
  | badKeyspace => "cache 'cache' has invalid namespace: must not contain ':' or glob characters"
  | noLifetime name => s!"cache 'ttl' has invalid ttl: {name} must be at least 1 second"
  | badTableName table =>
    s!"table '{table}' has invalid name: expected an identifier, optionally prefixed by a database"
  | emptyDateColumn table => s!"table '{table}' is missing required field 'date_column'"
  | badDateColumn table column =>
    s!"table '{table}' has invalid date_column: '{column}' is not an identifier"
  | badMaturityColumn table column =>
    s!"table '{table}' has invalid maturity_column: '{column}' is not an identifier"
  | maturityNotADate table column kind =>
    s!"table '{table}' has invalid maturity_column: " ++
      s!"'{column}' is declared as {kindWord kind}, expected date"
  | badField table field => s!"table '{table}' has invalid fields: '{field}' is not an identifier"

end SettingsError

namespace Settings

/-! ## §2 Checks -/

/-- Check that the warehouse is of the known kind. -/
def checkConnection (s : ConnectionSettings) : Except SettingsError Unit :=
  match s.backend with
  | some name =>
    if name = ConnectionSettings.knownBackend then .ok () else .error (.unknownBackend name)
  | none => .ok ()

/-- A character that separates the parts of a key or has a meaning in patterns. -/
def isReserved (c : Char) : Bool :=
  c == ':' || c == '*' || c == '?' || c == '['

/-- Lifetimes with their names, in the order in which they are checked. -/
def named (l : LifetimeSettings) : List (String × Nat) :=
  [("rows", l.rows), ("aggregates", l.aggregates), ("distinct", l.distinct),
    ("snapshot", l.snapshot)]

/-- Check that the keyspace has a name that is none of a pattern, and that answers are kept. -/
def checkCache (c : CacheSettings) : Except SettingsError Unit :=
  if c.keyspace.isEmpty then
    .error .emptyKeyspace
  else if c.keyspace.toList.any isReserved then
    .error .badKeyspace
  else
    match (named c.lifetimes).find? (·.2 = 0) with
    | some (name, _) => .error (.noLifetime name)
    | none => .ok ()

/-- Whether a table may have a name: an identifier, or identifiers before and behind the first point. -/
def isTableName (name : String) : Bool :=
  match Text.cutAt? '.' name.toList with
  | some (database, table) => Text.isIdentifierText database && Text.isIdentifierText table
  | none => Text.isIdentifierText name.toList

/-- Check the column of maturity dates of a table: an identifier that is not declared to be anything
but a date. -/
def checkMaturity (name : String) (t : TableSettings) (column : String) :
    Except SettingsError Unit :=
  if !Text.isIdentifier column then
    .error (.badMaturityColumn name column)
  else
    match Keyed.find? column t.fields with
    | some kind => if kind = .date then .ok () else .error (.maturityNotADate name column kind)
    | none => .ok ()

def checkTable (name : String) (t : TableSettings) : Except SettingsError Unit := do
  -- The order of the checks decides which of several mistakes is reported.
  if !isTableName name then
    throw (.badTableName name)
  if t.dateColumn.isEmpty then
    throw (.emptyDateColumn name)
  if !Text.isIdentifier t.dateColumn then
    throw (.badDateColumn name t.dateColumn)
  t.maturityColumn.forM (checkMaturity name t)
  match t.fields.find? fun field => !Text.isIdentifier field.1 with
  | some field => throw (.badField name field.1)
  | none => return

def check (s : Settings) : Except SettingsError Unit := do
  checkConnection s.connection
  checkCache s.cache
  s.tables.forM fun (name, t) => checkTable name t

def read (document : String) : Except SettingsError Settings :=
  match (Toml.read? document).bind ofToml? with
  | some s => do
    s.check
    return s
  | none => .error .unreadable

/-! ## §3 Registries -/

/-- The schema of a table. Declared fields come after the date column and before the column of the
maturity dates, so they can give the former another kind. -/
def schema (name : String) (t : TableSettings) : TableSchema :=
  let declared := (TableSchema.ofDateColumn name t.dateColumn t.encoding).withFields t.fields
  match t.maturityColumn with
  | some column => declared.withMaturityColumn column
  | none => declared

/-- The registry of the tables; an error comes with the name of its table. -/
def registry (s : Settings) : Except (String × AnalyticsError) TableRegistry :=
  s.tables.foldlM (fun tables (name, t) =>
    (TableRegistry.register tables (schema name t)).mapError fun e => (name, e)) []

end Settings

end SnapshotAnalytics

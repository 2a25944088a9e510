import SnapshotAnalytics.Engine.Basic
import SnapshotAnalytics.Toml.Document
import SnapshotAnalytics.Warehouse.Connection

/-!
# Settings

The settings of a program that answers requests: how much it logs, the connection to the warehouse,
the cache, and the tables. They are read from a TOML document, in which everything but the date column
of a table can be left out and undeclared names are passed over.
-/

namespace SnapshotAnalytics

/-! ## §1 Parts -/

/-- How much is logged. -/
inductive LogLevel where
  | trace
  | debug
  | info
  | warn
  | error
  deriving DecidableEq

namespace LogLevel

def name : LogLevel → String
  | trace => "trace"
  | debug => "debug"
  | info => "info"
  | warn => "warn"
  | error => "error"

def ofName? (s : String) : Option LogLevel :=
  [trace, debug, info, warn, error].find? (·.name == s)

end LogLevel

/-- For how many seconds answers are kept, by the kind of what was asked for. -/
structure LifetimeSettings where
  rows : Nat
  aggregates : Nat
  distinct : Nat
  snapshot : Nat
  deriving DecidableEq

namespace LifetimeSettings

/-- The lifetimes unless others are given. -/
def default : LifetimeSettings := ⟨60, 300, 3600, 300⟩

def lifetimes (l : LifetimeSettings) : Lifetimes :=
  ⟨nanoseconds l.rows, nanoseconds l.aggregates, nanoseconds l.distinct, nanoseconds l.snapshot⟩

end LifetimeSettings

/-- A cache and how long it keeps answers. -/
structure CacheSettings where
  enabled : Bool
  keyspace : String
  lifetimes : LifetimeSettings
  deriving DecidableEq

/-- A table: its date column and how dates are stored in it, possibly a column of maturity dates, and
the declared fields in ascending order. -/
structure TableSettings where
  dateColumn : String
  encoding : DateEncoding
  maturityColumn : Option String
  fields : List (String × FieldKind)
  deriving DecidableEq

/-- All settings; the tables are listed by name in ascending order. -/
structure Settings where
  logLevel : LogLevel
  connection : ConnectionSettings
  cache : CacheSettings
  tables : List (String × TableSettings)
  deriving DecidableEq

namespace CacheSettings

/-- The cache unless another is described. -/
def default : CacheSettings := ⟨true, "vantage", .default⟩

end CacheSettings

namespace Settings

def default : Settings := ⟨.info, .none, .default, []⟩

end Settings

/-! ## §2 Reading -/

namespace Settings

def logLevelOfToml? (v : Toml) : Option LogLevel := do
  match ← v.slots? ["level"] with
  | [level] => Slot.withDefault .info (Toml.alternative? LogLevel.ofName?) level
  | _ => none

def lifetimesOfToml? (v : Toml) : Option LifetimeSettings := do
  match ← v.slots? ["rows", "aggregates", "distinct", "snapshot"] with
  | [rows, aggregates, distinct, snapshot] =>
    let usual := LifetimeSettings.default
    return {
      rows := ← Slot.withDefault usual.rows Toml.natural? rows
      aggregates := ← Slot.withDefault usual.aggregates Toml.natural? aggregates
      distinct := ← Slot.withDefault usual.distinct Toml.natural? distinct
      snapshot := ← Slot.withDefault usual.snapshot Toml.natural? snapshot }
  | _ => none

def cacheOfToml? (v : Toml) : Option CacheSettings := do
  match ← v.slots? ["enabled", "namespace", "ttl"] with
  | [enabled, keyspace, lifetimes] =>
    let usual := CacheSettings.default
    return {
      enabled := ← Slot.withDefault usual.enabled Toml.bool? enabled
      keyspace := ← Slot.withDefault usual.keyspace Toml.text? keyspace
      lifetimes := ← Slot.withDefault usual.lifetimes lifetimesOfToml? lifetimes }
  | _ => none

/-- Whether settings of a connection that are given by position list all of them. -/
def listsConnection : Toml → Bool
  | .array items => 6 ≤ items.length
  | _ => true

def connectionOfToml? (v : Toml) : Option ConnectionSettings := do
  if !listsConnection v then failure
  match ← v.slots? ["backend", "url", "database", "username", "password", "max_execution_time"] with
  | [backend, url, database, username, password, maxExecutionTime] =>
    return {
      backend := ← Toml.optional Toml.text? backend
      url := ← Toml.optional Toml.text? url
      database := ← Toml.optional Toml.text? database
      username := ← Toml.optional Toml.text? username
      password := ← Toml.optional Toml.text? password
      maxExecutionTime := ← Toml.optional Toml.natural? maxExecutionTime }
  | _ => none

def tableOfToml? (v : Toml) : Option TableSettings := do
  match ← v.slots? ["date_column", "date_format", "maturity_column", "fields"] with
  | [dateColumn, encoding, maturityColumn, fields] =>
    return {
      dateColumn := ← Slot.required Toml.text? dateColumn
      encoding := ← Slot.withDefault .calendar (Toml.alternative? DateEncoding.ofName?) encoding
      maturityColumn := ← Toml.optional Toml.text? maturityColumn
      fields := Keyed.ofList
        (← Slot.withDefault [] (Toml.entries? (Toml.alternative? FieldKind.ofName?)) fields) }
  | _ => none

def ofToml? (v : Toml) : Option Settings := do
  match ← v.slots? ["log", "query", "cache", "tables"] with
  | [logLevel, connection, cache, tables] =>
    return {
      logLevel := ← Slot.withDefault .info logLevelOfToml? logLevel
      connection := ← Slot.withDefault .none connectionOfToml? connection
      cache := ← Slot.withDefault .default cacheOfToml? cache
      tables := Keyed.ofList (← Slot.withDefault [] (Toml.entries? tableOfToml?) tables) }
  | _ => none

end Settings

end SnapshotAnalytics

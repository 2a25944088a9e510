import SnapshotAnalytics.Json.Reading
import SnapshotAnalytics.Query.Error

/-!
# Connections to a warehouse

The settings of a connection may leave parts out; a connection has all that a request needs.
-/

namespace SnapshotAnalytics

/-- Where a warehouse is reached, which database is read, and for how many seconds a query may run. -/
structure Connection where
  url : String
  database : String
  credentials : Option (String × String)
  maxExecutionTime : Nat
  deriving DecidableEq

/-- The settings of a connection. -/
structure ConnectionSettings where
  backend : Option String
  url : Option String
  database : Option String
  username : Option String
  password : Option String
  maxExecutionTime : Option Nat
  deriving DecidableEq

namespace ConnectionSettings

/-- The only kind of warehouse there is. -/
def knownBackend : String := "clickhouse"

def none : ConnectionSettings :=
  ⟨.none, .none, .none, .none, .none, .none⟩

def ofUrl (url database : String) : ConnectionSettings :=
  { none with backend := some knownBackend, url := some url, database := some database }

/-- The database unless one is given. -/
def defaultDatabase : String := "default"

/-- For how many seconds a query may run unless a number is given. -/
def defaultMaxExecutionTime : Nat := 60

/-- The connection that settings describe; credentials need both a name and a password. -/
def connection (s : ConnectionSettings) : Except QueryError Connection := do
  let backend := s.backend.getD knownBackend
  if backend != knownBackend then
    throw (.configuration s!"unknown backend: {backend}")
  match s.url with
  | .none => throw (.configuration "url required for clickhouse backend")
  | some url =>
    return {
      url := url
      database := s.database.getD defaultDatabase
      credentials := do return (← s.username, ← s.password)
      maxExecutionTime := s.maxExecutionTime.getD defaultMaxExecutionTime }

def toJson (s : ConnectionSettings) : Json :=
  .object [("backend", .ofText? s.backend), ("url", .ofText? s.url),
    ("database", .ofText? s.database), ("username", .ofText? s.username),
    ("password", .ofText? s.password),
    ("max_execution_time", (s.maxExecutionTime.map Json.ofNat).getD .null)]

/-- Whether a slot that may be null is there; settings by position have to list all of them. -/
def isComplete (d : Json.Draft) : Bool :=
  match d with
  | .array items => items.length == 6
  | _ => true

def ofDraft? (d : Json.Draft) : Option ConnectionSettings := do
  if !isComplete d then failure
  match ← d.slots? ["backend", "url", "database", "username", "password", "max_execution_time"] with
  | [backend, url, database, username, password, maxExecutionTime] =>
    return {
      backend := ← Json.Draft.optional Json.Draft.text? backend
      url := ← Json.Draft.optional Json.Draft.text? url
      database := ← Json.Draft.optional Json.Draft.text? database
      username := ← Json.Draft.optional Json.Draft.text? username
      password := ← Json.Draft.optional Json.Draft.text? password
      maxExecutionTime := ← Json.Draft.optional Json.Draft.count? maxExecutionTime }
  | _ => .none

end ConnectionSettings

end SnapshotAnalytics

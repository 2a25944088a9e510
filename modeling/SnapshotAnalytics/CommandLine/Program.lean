import SnapshotAnalytics.CommandLine.Arguments
import SnapshotAnalytics.CommandLine.Batch
import SnapshotAnalytics.Settings.Check
import SnapshotAnalytics.Warehouse.Exchange

/-!
# The program

What the program prints, given its arguments and what it finds around it: the files, the text on
standard input, the day, the clock, and how requests travel to the warehouse. A failure is reported as a
chain: what could not be done, and below it the causes, each one the cause of the one above. A crash ends
the program; what is written about it then is not the program's own.
-/

namespace SnapshotAnalytics.CommandLine

/-! ## §1 Surroundings and outcomes -/

/-- What is found where a file is looked for: a text, or why the path leads nowhere, or why what is
there cannot be read. -/
inductive Found where
  | text (s : String)
  | absent (reason : String)
  | unreadable (reason : String)

namespace Found

def nothing : Found :=
  absent "No such file or directory (os error 2)"

/-- The path goes on behind a file as if it were a directory. -/
def behindFile : Found :=
  absent "Not a directory (os error 20)"

def nameTooLong : Found :=
  absent "File name too long (os error 36)"

def directory : Found :=
  unreadable "Is a directory (os error 21)"

def isPresent : Found → Bool
  | absent _ => false
  | _ => true

/-- The text of a file, or why there is none. -/
def contents : Found → Except String String
  | text s => .ok s
  | absent reason | unreadable reason => .error reason

end Found

/-- What the program finds around it, with the effects of `m`. The reader of JSON complains of texts
that are no requests and of lines that are no rows. -/
structure World (m : Type → Type) where
  file : String → m Found
  input : m (Except String String)
  today : Date
  clock : m Nat
  transport : Transport m
  requestComplaint : String → String
  rowComplaint : List Char → String

/-- What the program prints, and its exit code. -/
structure Outcome where
  exit : Nat
  output : String
  errors : String
  deriving DecidableEq

/-- A failure: what could not be done, and the causes. -/
abbrev Failure := List String

namespace Failure

/-- The lines of a text behind the first one, moved in. -/
def moveIn (margin text : String) : String :=
  String.ofList (Text.replace ['\n'] ('\n' :: margin.toList) text.toList)

def columnNumber (n : Nat) : String :=
  let digits := toString n
  String.ofList (List.replicate (5 - digits.length) ' ') ++ digits

/-- The causes below a failure: one cause is moved in, several are numbered. -/
def causes : List String → String
  | [] => ""
  | [cause] => "\n\nCaused by:\n    " ++ moveIn "    " cause
  | several =>
    "\n\nCaused by:" ++ String.join (several.mapIdx fun i cause =>
      "\n" ++ columnNumber i ++ ": " ++ moveIn "       " cause)

def report : Failure → String
  | [] => ""
  | failure :: below => "Error: " ++ failure ++ causes below ++ "\n"

def ofAnalytics (e : AnalyticsError) : Failure :=
  e.message :: match e with
    | .query cause => [cause.message]
    | .store cause => [cause.message]
    | _ => []

end Failure

/-- Work that can fail, with the effects of `m`. -/
abbrev Work (m : Type → Type) := ExceptT Failure m

variable {m : Type → Type} [Monad m]

/-! ## §2 Settings -/

def defaultPaths : List String :=
  ["vantage.toml", "configs/vantage.toml"]

/-- The settings that a file holds, of which the path is known. -/
def settingsOf (path : String) (found : Found) : Except Failure Settings :=
  let failure := s!"failed to load config from {path}"
  match found.contents with
  | .error reason => .error [failure, s!"failed to read config file '{path}': {reason}", reason]
  | .ok document =>
    match Settings.read document with
    | .ok settings => .ok settings
    | .error .unreadable => .error [failure, SettingsError.unreadable.message, "invalid TOML"]
    | .error e => .error [failure, e.message]

/-- The first path at which there is anything. -/
def firstFound (w : World m) : List String → m (Option String)
  | [] => return none
  | path :: paths => do
    if (← w.file path).isPresent then return some path else firstFound w paths

/-- Load the settings: from the given file, or from the first default one that there is. -/
def load (w : World m) (path : Option String) : Work m Settings := do
  let path ← match path with
    | some path => pure (some path)
    | none => liftM (firstFound w defaultPaths)
  match path with
  | some path => settingsOf path (← w.file path)
  | none => return .default

def registryOf (s : Settings) : Except Failure TableRegistry :=
  s.registry.mapError fun (name, e) => s!"invalid table '{name}'" :: Failure.ofAnalytics e

/-- The engine that the settings describe, and the warehouse it asks. -/
def engineOf (w : World m) (s : Settings) : Except Failure (Engine × Backend m) := do
  let connection ← s.connection.connection.mapError fun e =>
    ["invalid [query] section", e.message]
  let tables ← registryOf s
  return (⟨⟨s.cache.keyspace, s.cache.enabled⟩, tables, s.cache.lifetimes.lifetimes⟩,
    Warehouse.backend w.transport w.rowComplaint connection)

/-- A request is answered when the clock says so, and queries that belong together are sent together. -/
def surroundings (w : World m) (backend : Backend m) : Surroundings m :=
  let moment : m Moment := return .calm (← w.clock)
  ⟨backend, fun _ => ⟨moment, moment⟩, .together, w.today, w.clock, w.clock, w.requestComplaint⟩

/-! ## §3 Commands -/

def line (s : String) : String :=
  s ++ "\n"

/-- The text of the requests: of a file, or of standard input for a dash. -/
def requestsText (w : World m) (path : String) : Work m String := do
  if path = "-" then
    (← w.input).mapError fun reason => ["failed to read requests from stdin", reason]
  else
    (← w.file path).contents.mapError fun reason =>
      [s!"failed to read requests from {path}", reason]

/-- The lines that tell how a batch went: how many requests there were, and what the cache did. -/
def summaryText (n : Batch.Summary) (c : Counters) : String :=
  line (s!"\n{n.requests} request(s), {n.failed} failed; " ++
    s!"cache {c.hits} hit(s), {c.misses} miss(es)")

/-- What is left of a program that crashed. -/
def crashed (output : String) : Outcome := ⟨101, output, ""⟩

/-- Answer the requests of a batch. A crash leaves the answers that were printed before. -/
def runBatch (w : World m) (s : Settings) (path : String) (pretty noCache : Bool) :
    Work m Outcome := do
  let input ← requestsText w path
  -- The option only ever turns the cache off.
  let s := if noCache then { s with cache := { s.cache with enabled := false } } else s
  let (engine, backend) ← engineOf w s
  let (answers, state) ←
    (Batch.answer engine (fun _ => surroundings w backend) input).run .initial
  let output :=
    String.join (answers.envelopes.map fun envelope => line (Batch.print pretty envelope))
  if answers.complete then
    return ⟨0, output, summaryText (Batch.summary answers.envelopes) state.counters⟩
  else
    return crashed output

/-- A table as JSON, its members in ascending order. -/
def tableToJson (t : TableSchema) : Json :=
  .object [("dateColumn", .text t.dateColumn),
    ("fields", .object (t.fields.map fun (name, kind) => (name, .text kind.name))),
    ("maturityColumn", .ofText? t.maturityColumn), ("name", .text t.name)]

/-- A table over several lines: its name and date column, then its fields in columns. -/
def tableLines (t : TableSchema) : List String :=
  s!"{t.name} (snapshot: {t.dateColumn})" ::
    t.fields.map fun (name, kind) => "  " ++ Text.padRight 24 name ++ " " ++ kind.name

def listTables (s : Settings) (json : Bool) : Except Failure Outcome := do
  let tables ← registryOf s
  let output :=
    if json then
      line (Json.array (tables.map fun (_, t) => tableToJson t)).renderIndented
    else if tables.isEmpty then
      line "No tables configured."
    else
      String.join ((tables.flatMap fun (_, t) => tableLines t).map line)
  return ⟨0, output, ""⟩

/-- Find the snapshot of a table for a day, or for today. -/
def findSnapshot (w : World m) (s : Settings) (table : String) (date : Option Date)
    (direction : Direction) : Work m Outcome := do
  let (engine, backend) ← engineOf w s
  let (snapshot, _) ←
    (engine.resolveByName (surroundings w backend) table direction
      (date.getD w.today)).run.run .initial
  match snapshot with
  | .ok d => return ⟨0, line d.text, ""⟩
  | .error (.error e) => throw (Failure.ofAnalytics e)
  | .error .crash => return crashed ""

def askHealth (w : World m) (s : Settings) : Work m Outcome := do
  let (_, backend) ← engineOf w s
  match ← backend.health with
  | .ok () => return ⟨0, line "ok", ""⟩
  | .error e => throw ("analytical store is unreachable" :: Failure.ofAnalytics (.query e))

def perform (w : World m) (s : Settings) : Command → Work m Outcome
  | .run input pretty noCache => runBatch w s input pretty noCache
  | .tables json => .mk (pure (listTables s json))
  | .snapshot table date direction => findSnapshot w s table date direction
  | .health => askHealth w s

/-! ## §4 The whole program -/

def usage : String :=
  "Usage: [-c FILE] [-l LEVEL] COMMAND\n\nCommands:\n" ++
    "  run [FILE] [--pretty] [--no-cache]\n  tables [--json]\n" ++
    "  snapshot TABLE [DATE] [--forward]\n  health\n"

def run (w : World m) (args : Arguments) : m Outcome :=
  match args with
  | .help => return ⟨0, usage, ""⟩
  | .misuse => return ⟨2, "", usage⟩
  | .invocation i => do
    match ← (load w i.config >>= fun settings => perform w settings i.command).run with
    | .ok outcome => return outcome
    | .error failure => return ⟨1, "", Failure.report failure⟩

end SnapshotAnalytics.CommandLine

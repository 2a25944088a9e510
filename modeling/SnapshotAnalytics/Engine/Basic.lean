import SnapshotAnalytics.Cache.ReadThrough
import SnapshotAnalytics.Engine.Answer
import SnapshotAnalytics.Engine.Request
import SnapshotAnalytics.Report.Resolution

/-!
# The engine

A request is checked and its filters are compiled before anything is looked up or sent. Then the
snapshots of its days are resolved, the figures of the snapshots are fetched through the cache, and
the report is made from them.
-/

namespace SnapshotAnalytics

/-! ## §1 Setting -/

/-- How long answers are kept, by the kind of what was asked for. -/
structure Lifetimes where
  rows : Nat
  aggregates : Nat
  distinct : Nat
  snapshot : Nat
  deriving DecidableEq

namespace Lifetimes

/-- The lifetimes unless others are given. -/
def default : Lifetimes :=
  ⟨nanoseconds 60, nanoseconds 300, nanoseconds 3600, nanoseconds 300⟩

end Lifetimes

/-- A cache over the tables that can be asked for. -/
structure Engine where
  cache : Cache
  tables : TableRegistry
  lifetimes : Lifetimes

/-- The queries of a request: for the snapshots of its days, and for the figures of these snapshots. -/
inductive Stage where
  | snapshot
  | comparedSnapshot
  | figures
  | comparedFigures
  deriving DecidableEq

/-- Where and when a request is answered: what answers queries, when each query of the request is
looked up and stored and how the store does then, how two queries that belong together are answered,
the day it is, the times at which the work begins and ends, and what the reader of JSON complains of in a
text that is no request. -/
structure Surroundings (m : Type → Type) where
  backend : Backend m
  timing : Stage → Timing m
  pacing : Cache.Pacing
  today : Date
  began : m Nat
  ended : m Nat
  complaint : String → String

/-- Work on a request: it can fail or crash, and what it did to the cache then remains. -/
abbrev EngineM (m : Type → Type) := ExceptT (Halt AnalyticsError) (CacheM m)

namespace Engine

variable {m : Type → Type} [Monad m]

/-! ## §2 Fetching -/

/-- What was checked goes on, and what is refused ends the work. -/
def check {α : Type} (x : Except AnalyticsError α) : EngineM m α :=
  .mk (pure (x.mapError .error))

def fetchOf (s : Select) (key : Option CacheKey) (ttl : Nat) : Fetch :=
  ⟨s.query, key.map CacheKey.text, ttl⟩

def fetch (e : Engine) (s : Surroundings m) (stage : Stage) (f : Fetch) : EngineM m QueryResult :=
  ExceptT.adapt (Halt.map .query) (e.cache.query s.backend (s.timing stage) f)

/-- Fetch the answers to two selections that belong together. -/
def fetchPair (e : Engine) (s : Surroundings m) (stage stage' : Stage) (f g : Fetch) :
    EngineM m (QueryResult × QueryResult) :=
  ExceptT.adapt (Halt.map .query)
    (e.cache.queryPair s.backend (s.timing stage) (s.timing stage') s.pacing f g)

def resolutionOf (e : Engine) (t : TableSchema) (direction : Direction) (target : Date) : Fetch :=
  fetchOf (Resolution.select t direction target) (some (Resolution.key t direction target))
    e.lifetimes.snapshot

/-- What asks for the groups of a breakdown. -/
def breakdownFetch (e : Engine) (plan : BreakdownPlan) (snapshot : Date) : Fetch :=
  fetchOf (plan.select snapshot) (some (plan.key snapshot)) e.lifetimes.aggregates

def statCardFetch (e : Engine) (plan : StatCardPlan) (snapshot : Date) : Fetch :=
  fetchOf (plan.select snapshot) (some (plan.key snapshot)) e.lifetimes.aggregates

def historyFetch (e : Engine) (plan : HistoryPlan) (base : Date) : Fetch :=
  fetchOf (plan.select base) (some (plan.key base)) e.lifetimes.aggregates

def maturityFetch (e : Engine) (plan : MaturityPlan) (snapshot : Date) : Fetch :=
  fetchOf (plan.select snapshot) (some (plan.key snapshot)) e.lifetimes.aggregates

def resolve (e : Engine) (s : Surroundings m) (t : TableSchema) (direction : Direction)
    (target : Date) : EngineM m Date := do
  let r ← e.fetch s .snapshot (e.resolutionOf t direction target)
  return Resolution.snapshot target r

/-- The snapshots for a day and for the day it is compared with. -/
def resolvePair (e : Engine) (s : Surroundings m) (t : TableSchema) (current comparison : Date) :
    EngineM m (Date × Date) := do
  let (r, r') ← e.fetchPair s .snapshot .comparedSnapshot
    (e.resolutionOf t .backward current) (e.resolutionOf t .backward comparison)
  return (Resolution.snapshot current r, Resolution.snapshot comparison r')

def resolveByName (e : Engine) (s : Surroundings m) (table : String) (direction : Direction)
    (target : Date) : EngineM m Date := do
  let t ← check (e.tables.table table)
  e.resolve s t direction target

/-! ## §3 Reports at given snapshots -/

/-- The rows of a breakdown. -/
def breakdownAt (e : Engine) (s : Surroundings m) (plan : BreakdownPlan)
    (current comparison : Date) : EngineM m (List (BreakdownRow Binary64)) := do
  let (r, r') ← e.fetchPair s .figures .comparedFigures
    (e.breakdownFetch plan current) (e.breakdownFetch plan comparison)
  return Breakdown.rows plan.spec (plan.groups r) (plan.groups r')

def statCardAt (e : Engine) (s : Surroundings m) (plan : StatCardPlan)
    (current comparison : Date) : EngineM m (List (StatMetric Binary64)) := do
  let (r, r') ← e.fetchPair s .figures .comparedFigures
    (e.statCardFetch plan current) (e.statCardFetch plan comparison)
  return StatMetric.ofFigures plan.spec (plan.figures r) (plan.figures r')

def historyAt (e : Engine) (s : Surroundings m) (plan : HistoryPlan) (base : Date) :
    EngineM m (HistorySeries Binary64) := do
  let r ← e.fetch s .figures (e.historyFetch plan base)
  return HistorySeries.ofSnapshots plan.spec (r.groupsByDate "snapshot")

def maturityAt (e : Engine) (s : Surroundings m) (plan : MaturityPlan) (snapshot : Date) :
    EngineM m (MaturitySeries Binary64) := do
  let r ← e.fetch s .figures (e.maturityFetch plan snapshot)
  return MaturitySeries.ofMonths plan.spec (r.groupsByDate "month")

def rowsAt (e : Engine) (s : Surroundings m) (plan : RowsPlan) (snapshot : Date) :
    EngineM m RowsPage := do
  -- a listing has no key of its own: its answer is found by the digest of its query
  let r ← e.fetch s .figures (fetchOf (plan.select snapshot) none e.lifetimes.rows)
  return RowsPage.ofResult plan snapshot r

def distinctAt (e : Engine) (s : Surroundings m) (plan : DistinctPlan) (snapshot : Date) :
    EngineM m DistinctValues := do
  let r ← e.fetch s .figures (fetchOf (plan.select snapshot) none e.lifetimes.distinct)
  return DistinctValues.ofResult plan r

/-- The report that a request asks for, at the given snapshots instead of those of its days. -/
def computeAt (e : Engine) (s : Surroundings m) (current comparison : Date) :
    Request → EngineM m Payload
  | .breakdown r => do
    let plan ← check (BreakdownPlan.prepare e.tables r.spec r.groupBy r.filters)
    return .breakdown (← e.breakdownAt s plan current comparison)
  | .statCard r => do
    let plan ← check (StatCardPlan.prepare e.tables r.spec r.filters)
    return .statCard (← e.statCardAt s plan current comparison)
  | .history r => do
    let plan ← check (HistoryPlan.prepare e.tables r.spec r.filters)
    return .history (← e.historyAt s plan current)
  | .maturity r => do
    let plan ← check (MaturityPlan.prepare e.tables r.spec r.filters)
    return .maturity (← e.maturityAt s plan current)
  | .rows r => do
    let plan ← check (RowsPlan.prepare e.tables r)
    return .rows (← e.rowsAt s plan current)
  | .distinct r => do
    let plan ← check (DistinctPlan.prepare e.tables r)
    return .distinct (← e.distinctAt s plan current)

/-! ## §4 Answering requests -/

/-- Answer a request for a breakdown. -/
def breakdown (e : Engine) (s : Surroundings m) (r : BreakdownRequest) : EngineM m Answer := do
  -- everything that can be refused is refused before the first query
  let plan ← check (BreakdownPlan.prepare e.tables r.spec r.groupBy r.filters)
  let (asOf, target) ← check (r.window.targets s.today)
  let (current, comparison) ← e.resolvePair s plan.table asOf target
  let rows ← e.breakdownAt s plan current comparison
  return ⟨.breakdown rows,
    ⟨plan.table.name, asOf, some current, some comparison, e.lifetimes.aggregates, 0⟩⟩

def statCard (e : Engine) (s : Surroundings m) (r : StatCardRequest) : EngineM m Answer := do
  let plan ← check (StatCardPlan.prepare e.tables r.spec r.filters)
  let (asOf, target) ← check (r.window.targets s.today)
  let (current, comparison) ← e.resolvePair s plan.table asOf target
  let metrics ← e.statCardAt s plan current comparison
  return ⟨.statCard metrics,
    ⟨plan.table.name, asOf, some current, some comparison, e.lifetimes.aggregates, 0⟩⟩

def history (e : Engine) (s : Surroundings m) (r : HistoryRequest) : EngineM m Answer := do
  let plan ← check (HistoryPlan.prepare e.tables r.spec r.filters)
  let asOf := r.asOf.getD s.today
  let base ← e.resolve s plan.table .backward asOf
  let series ← e.historyAt s plan base
  return ⟨.history series, ⟨plan.table.name, asOf, some base, none, e.lifetimes.aggregates, 0⟩⟩

def maturity (e : Engine) (s : Surroundings m) (r : MaturityRequest) : EngineM m Answer := do
  let plan ← check (MaturityPlan.prepare e.tables r.spec r.filters)
  let asOf := r.asOf.getD s.today
  -- maturities lie ahead, so the snapshot is looked for from the day on
  let snapshot ← e.resolve s plan.table .forward asOf
  let series ← e.maturityAt s plan snapshot
  return ⟨.maturity series,
    ⟨plan.table.name, asOf, some snapshot, none, e.lifetimes.aggregates, 0⟩⟩

def rows (e : Engine) (s : Surroundings m) (r : RowsRequest) : EngineM m Answer := do
  let plan ← check (RowsPlan.prepare e.tables r)
  let asOf := r.asOf.getD s.today
  let snapshot ← e.resolve s plan.table .backward asOf
  let page ← e.rowsAt s plan snapshot
  return ⟨.rows page, ⟨plan.table.name, asOf, some snapshot, none, e.lifetimes.rows, 0⟩⟩

def distinct (e : Engine) (s : Surroundings m) (r : DistinctRequest) : EngineM m Answer := do
  let plan ← check (DistinctPlan.prepare e.tables r)
  let asOf := r.asOf.getD s.today
  let snapshot ← e.resolve s plan.table .backward asOf
  let values ← e.distinctAt s plan snapshot
  return ⟨.distinct values, ⟨plan.table.name, asOf, some snapshot, none, e.lifetimes.distinct, 0⟩⟩

def answer (e : Engine) (s : Surroundings m) : Request → EngineM m Answer
  | .breakdown r => e.breakdown s r
  | .statCard r => e.statCard s r
  | .history r => e.history s r
  | .maturity r => e.maturity s r
  | .rows r => e.rows s r
  | .distinct r => e.distinct s r

/-- Answer a request. When the work crashes there is nothing in place of an answer. -/
def handle (e : Engine) (s : Surroundings m) (r : Request) : CacheM m (Option Envelope) := do
  let began ← liftM s.began
  match ← (e.answer s r).run with
  | .ok answer =>
    let ended ← liftM s.ended
    return some (.ok (answer.timed (ended - began)))
  | .error (.error mistake) => return some (.error mistake)
  | .error .crash => return none

def handleText (e : Engine) (s : Surroundings m) (text : String) : CacheM m (Option Envelope) :=
  match Request.read? text with
  | some r => e.handle s r
  | none => return some (.error (.unreadableRequest (s.complaint text)))

/-- Remove stored answers whose keys match a pattern. -/
def invalidate (e : Engine) (t : Moment) (pattern : Option String) :
    ExceptT AnalyticsError (CacheM m) Nat :=
  ExceptT.adapt AnalyticsError.store (e.cache.invalidate t pattern)

end Engine

end SnapshotAnalytics

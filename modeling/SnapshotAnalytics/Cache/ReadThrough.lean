import SnapshotAnalytics.Cache.Error
import SnapshotAnalytics.Cache.Key
import SnapshotAnalytics.Cache.Store
import SnapshotAnalytics.Number.Binary64
import SnapshotAnalytics.Query.Result

/-!
# Reading through the cache

An answer that is stored is given back without asking the warehouse; any other query is sent, and its
answer is stored. A store that fails costs only time: a read that fails counts as a miss, and a write
that fails leaves the answer unstored. Errors are not stored. A write that crashes takes the query with
it.
-/

namespace SnapshotAnalytics

/-! ## §1 Surroundings -/

/-- What answers queries, with the effects of `m`. An answer may depend on the queries sent before. -/
structure Backend (m : Type → Type) where
  name : String
  answer : List Query → Query → m (Except QueryError QueryResult)
  health : m (Except QueryError Unit)

/-- A time, the last time that there is, and how the store fails then: the reasons why reads, writes
and deletions are refused. -/
structure Moment where
  now : Nat
  horizon : Nat
  readFault : Option String
  writeFault : Option String
  deleteFault : Option String

namespace Moment

/-- A time at which nothing fails. -/
def calm (now : Nat) : Moment := ⟨now, lastTime, none, none, none⟩

/-- Whether what is kept for some time from now on expires at a time that there is. -/
def fits (t : Moment) (ttl : Nat) : Bool :=
  Store.fits t.horizon t.now ttl

/-- Whether a write crashes. One that is refused does not get as far. -/
def crashes (t : Moment) (ttl : Nat) : Bool :=
  t.writeFault.isNone && !t.fits ttl

end Moment

/-- The moments of a query, each found out when it comes: when it is looked up, and when its answer has
arrived and is stored. -/
structure Timing (m : Type → Type) where
  asked : m Moment
  answered : m Moment

/-- How a cache is set up: what its keys start with, and whether it is used at all. -/
structure Cache where
  keyspace : String
  enabled : Bool
  deriving DecidableEq

/-- A query, the key of its answer if it has one of its own, and how long to keep it. -/
structure Fetch where
  query : Query
  key : Option String
  ttl : Nat
  deriving DecidableEq

/-- How often an answer was stored, was not, and how often the store failed. -/
structure Counters where
  hits : Nat
  misses : Nat
  storeErrors : Nat
  deriving DecidableEq

namespace Counters

def zero : Counters := ⟨0, 0, 0⟩

/-- The share of queries whose answers were stored, zero when there were no queries. -/
def hitRate (c : Counters) : Binary64 :=
  if c.hits + c.misses = 0 then .zeroOf false
  else (Binary64.ofNat c.hits).div (.ofNat (c.hits + c.misses))

end Counters

/-- The store, the counters, and the queries sent so far, in order. -/
structure CacheState where
  store : Store String
  counters : Counters
  sent : List Query

namespace CacheState

/-- Nothing stored, counted or sent. -/
def initial : CacheState := ⟨.empty, .zero, []⟩

end CacheState

/-- An operation on the state of a cache, with the effects of `m`. -/
abbrev CacheM (m : Type → Type) := StateT CacheState m

namespace Cache

variable {m : Type → Type} [Monad m]

/-! ## §2 Single steps -/

def keyFor (c : Cache) (f : Fetch) : String :=
  c.keyspace ++ ":" ++ f.key.getD (CacheKey.derived f.query)

def count (change : Counters → Counters) : StateM CacheState Unit :=
  modify fun s => { s with counters := change s.counters }

/-- The stored answer under a key, if it can be read. -/
def lookup (t : Moment) (key : String) : StateM CacheState (Option QueryResult) := do
  match t.readFault with
  | some _ =>
    -- a store that cannot be read is a store without an answer: the query is sent
    count fun n => { n with storeErrors := n.storeErrors + 1 }
    return none
  | none =>
    let s ← get
    let (found, store) := s.store.get t.now key
    set { s with store := store }
    -- a stored text that is no result counts as a miss, not as a failure of the store
    return found.bind QueryResult.decode?

/-- What storing an answer does to the cache, whether the write crashes or not. -/
def save (t : Moment) (key : String) (ttl : Nat) (r : QueryResult) : StateM CacheState Unit :=
  match t.writeFault with
  | some _ => count fun n => { n with storeErrors := n.storeErrors + 1 }
  | none =>
    modify fun s => { s with store := s.store.set t.horizon t.now key r.encode ttl }

def send (b : Backend m) (q : Query) : ExceptT (Halt QueryError) (CacheM m) QueryResult := do
  let s ← get
  set { s with sent := s.sent ++ [q] }
  match ← liftM (b.answer s.sent q) with
  | .ok r => return r
  | .error e => throw (.error e)

/-! ## §3 Queries -/

/-- The first half of a query: look its answer up. -/
def start (c : Cache) (t : Moment) (f : Fetch) : StateM CacheState (Option QueryResult) := do
  if c.enabled then
    let found ← lookup t (c.keyFor f)
    match found with
    | some _ => count fun n => { n with hits := n.hits + 1 }
    | none => count fun n => { n with misses := n.misses + 1 }
    return found
  else
    return none

/-- The second half of a query: send it, unless its answer was found. -/
def finish (c : Cache) (b : Backend m) (answered : m Moment) (f : Fetch) :
    Option QueryResult → ExceptT (Halt QueryError) (CacheM m) QueryResult
  | some r => return r
  | none => do
    let r ← send b f.query
    if c.enabled then
      -- the time to keep the answer runs from its arrival
      let t ← liftM answered
      modifyGet (save t (c.keyFor f) f.ttl r).run
      if t.crashes f.ttl then throw .crash
    return r

def query (c : Cache) (b : Backend m) (timing : Timing m) (f : Fetch) :
    ExceptT (Halt QueryError) (CacheM m) QueryResult := do
  let t ← liftM timing.asked
  c.finish b timing.answered f (← modifyGet (c.start t f).run)

/-- How two queries that belong together are answered: one after the other, so that the second may
find the answer of the first, or both looked up before either is sent. -/
inductive Pacing where
  | inTurn
  | together
  deriving DecidableEq

/-- Answer two queries. The first error is the answer, and then nothing further is sent. -/
def queryPair (c : Cache) (b : Backend m) (timing timing' : Timing m) (pacing : Pacing) (f g : Fetch) :
    ExceptT (Halt QueryError) (CacheM m) (QueryResult × QueryResult) := do
  match pacing with
  | .inTurn =>
    let r ← c.query b timing f
    return (r, ← c.query b timing' g)
  | .together =>
    -- both are looked up first, so two equal queries that miss are both sent
    let t ← liftM timing.asked
    let found ← modifyGet (c.start t f).run
    let t' ← liftM timing'.asked
    let found' ← modifyGet (c.start t' g).run
    let r ← c.finish b timing.answered f found
    return (r, ← c.finish b timing'.answered g found')

/-! ## §4 Invalidation -/

/-- The pattern of full keys for a pattern of keys; without one, every key of the cache. -/
def fullPattern (c : Cache) (pattern : Option String) : String :=
  c.keyspace ++ ":" ++ pattern.getD "*"

/-- Remove the answers whose keys match a pattern; gives back how many of them were live. -/
def invalidate (c : Cache) (t : Moment) (pattern : Option String) :
    ExceptT StoreError (CacheM m) Nat := do
  match t.deleteFault with
  | some reason => throw (.unavailable reason)
  | none =>
    let s ← get
    match s.store.deleteMatching t.now (c.fullPattern pattern) with
    | .error e => throw (.badPattern (c.fullPattern pattern) e)
    | .ok (deleted, store) =>
      set { s with store := store }
      return deleted

end Cache

end SnapshotAnalytics

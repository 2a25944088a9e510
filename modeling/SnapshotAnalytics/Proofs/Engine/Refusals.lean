import SnapshotAnalytics.Proofs.Engine.Fetching
import SnapshotAnalytics.Proofs.Engine.StatementForms

/-!
# Refused requests

Whatever can be refused is refused before the first look-up: behind the checks of a request only the
backend can give an error. A request that is answered by an error of another kind has therefore
touched nothing, neither the store nor the counters nor the backend, and it is refused with the same
error whatever is stored.
-/

namespace SnapshotAnalytics

variable {α β : Type}

/-! ## §1 Work behind the checks -/

namespace Engine

open CacheM

/-- Work ends early only when the backend refuses a query or a write crashes. -/
def Halted (e : Engine) (s : Surroundings Id) (halt : Halt AnalyticsError) : Prop :=
  ∃ queries, e.Halts s queries halt

/-- Work that is made up of fetches, whatever they find. -/
def Fetches (e : Engine) (s : Surroundings Id) (x : EngineM Id α) : Prop :=
  Yields (fun _ _ => True) (fun _ => True) (e.Halted s) x

variable {e : Engine} {s : Surroundings Id} {allowed : String → QueryResult → Prop}

/-- Anything may be stored under any key. -/
theorem admits_true (f : Fetch) : e.cache.Admits s.backend (fun _ _ => True) f :=
  fun _ _ _ => ⟨trivial, fun _ _ => trivial⟩

/-- A report on the snapshot of one day. -/
theorem report_yields (t : TableSchema) (direction : Direction) (asOf : Date)
    (hresolution : e.cache.Admits s.backend allowed (e.resolutionOf t direction asOf))
    (fetchAt : Date → Fetch) (httl : ∀ d, (fetchAt d).ttl ∈ e.lifetimes.all)
    (hfetch : ∀ d, e.cache.Admits s.backend allowed (fetchAt d))
    (report : Date → QueryResult → α) (payload : α → Payload) (ttl : Nat) :
    Yields allowed (fun _ => True) (e.Halted s)
      (do
        let d ← e.resolve s t direction asOf
        let a ← (do return report d (← e.fetch s .figures (fetchAt d)))
        return (⟨payload a, ⟨t.name, asOf, some d, none, ttl, 0⟩⟩ : Answer)) := by
  have hfetched {f : Fetch} (hf : e.cache.Admits s.backend allowed f) (hfttl : f.ttl ∈ e.lifetimes.all)
      (stage : Stage) : Yields allowed (fun _ => True) (e.Halted s) (e.fetch s stage f) :=
    (fetch_yields hf hfttl stage).imp (fun _ _ => trivial) fun _ hhalt => ⟨_, hhalt⟩
  have hsnapshot : Yields allowed (fun _ => True) (e.Halted s) (e.resolve s t direction asOf) :=
    (hfetched hresolution e.lifetimes.snapshot_mem_all .snapshot).map fun _ _ => trivial
  refine hsnapshot.bind fun d _ => ?_
  have hreport : Yields allowed (fun _ => True) (e.Halted s)
      (do return report d (← e.fetch s .figures (fetchAt d))) :=
    (hfetched (hfetch d) (httl d) .figures).map fun _ _ => trivial
  exact hreport.map fun _ _ => trivial

/-- A report on the snapshots of two days. -/
theorem comparison_fetches (t : TableSchema) (asOf target : Date) (fetchAt : Date → Fetch)
    (httl : ∀ d, (fetchAt d).ttl ∈ e.lifetimes.all) (report : QueryResult × QueryResult → α)
    (payload : α → Payload) (ttl : Nat) :
    e.Fetches s
      (do
        let found ← e.resolvePair s t asOf target
        let a ← (do
          let figures ← e.fetchPair s .figures .comparedFigures (fetchAt found.1) (fetchAt found.2)
          return report figures)
        return (⟨payload a, ⟨t.name, asOf, some found.1, some found.2, ttl, 0⟩⟩ : Answer)) := by
  -- Whatever two fetches halt with is a crash or an error of the backend.
  have hpair {f g : Fetch} (hf : f.ttl ∈ e.lifetimes.all) (hg : g.ttl ∈ e.lifetimes.all)
      (stage stage' : Stage) : e.Fetches s (e.fetchPair s stage stage' f g) :=
    (fetchPair_yields (admits_true f) (admits_true g) hf hg stage stage').imp
      (fun _ _ => trivial) fun _ hhalt => ⟨_, hhalt⟩
  have hlookup := e.lifetimes.snapshot_mem_all
  have hsnapshots : e.Fetches s (e.resolvePair s t asOf target) :=
    (hpair hlookup hlookup .snapshot .comparedSnapshot).map fun _ _ => trivial
  refine hsnapshots.bind fun found _ => ?_
  have hreport : e.Fetches s (do
      let figures ← e.fetchPair s .figures .comparedFigures (fetchAt found.1) (fetchAt found.2)
      return report figures) :=
    (hpair (httl found.1) (httl found.2) .figures .comparedFigures).map fun _ _ => trivial
  exact hreport.map fun _ _ => trivial

end Engine

/-! ## §2 Checks in front -/

/-- An operation that is refused outright, always with the same error and without a trace, or one that
is made up of fetches. -/
inductive EngineM.ChecksFirst (e : Engine) (s : Surroundings Id) (x : EngineM Id α) : Prop
  | refused (err : AnalyticsError) (h : ∀ st, x.run.run st = (.error (.error err), st))
  | accepted (h : e.Fetches s x)

namespace EngineM.ChecksFirst

variable {e : Engine} {s : Surroundings Id} {st : CacheState}

/-- A check in front of an operation refuses it or lets it through. -/
theorem check {x : Except AnalyticsError α} {k : α → EngineM Id β}
    (hk : ∀ a, ChecksFirst e s (k a)) : ChecksFirst e s (Engine.check x >>= k) := by
  cases x with
  | error err => exact .refused err fun st => rfl
  | ok a => exact hk a

/-- An accepted operation ends early only by what its fetches do. -/
theorem halted {x : EngineM Id α} (hx : e.Fetches s x) {halt : Halt AnalyticsError}
    (h : (x.run.run st).1 = .error halt) : e.Halted s halt := by
  have hresult := (hx st fun _ _ _ _ => trivial).2
  rw [h] at hresult
  exact hresult

/-- Behind an error of another kind everything is as it was, and it would have been the same error
with anything else stored. -/
theorem untouched {x : EngineM Id α} (hx : ChecksFirst e s x) {err : AnalyticsError}
    (h : (x.run.run st).1 = .error (.error err)) (hcode : ∀ cause, err ≠ .query cause) :
    ∀ st₁, x.run.run st₁ = (.error (.error err), st₁) := by
  cases hx with
  | refused err' hrefused =>
    rw [hrefused st] at h
    cases h
    exact hrefused
  | accepted hx =>
    obtain ⟨queries, hhalts⟩ := halted hx h
    cases err with
    | query cause => exact absurd rfl (hcode cause)
    | _ => exact hhalts.elim

theorem mayCrash {x : EngineM Id α} (hx : ChecksFirst e s x)
    (h : (x.run.run st).1 = .error .crash) : e.MayCrash s := by
  cases hx with
  | refused err hrefused =>
    rw [hrefused st] at h
    cases h
  | accepted hx =>
    obtain ⟨_, hhalts⟩ := halted hx h
    exact hhalts

end EngineM.ChecksFirst

/-! ## §3 Requests -/

namespace Engine

variable (e : Engine) (s : Surroundings Id)

/-- Every check of a request stands before its first fetch. -/
theorem answer_checksFirst (r : Request) : EngineM.ChecksFirst e s (e.answer s r) := by
  have httl := e.lifetimes.aggregates_mem_all
  -- Each kind goes through its checks, two or one of them, and fetches what it reports behind the
  -- last one.
  cases r with
  | breakdown r =>
    refine .check fun plan => .check fun days => .accepted ?_
    exact comparison_fetches plan.table days.1 days.2 (e.breakdownFetch plan) (fun _ => httl)
      (fun found => Breakdown.rows plan.spec (plan.groups found.1) (plan.groups found.2))
      .breakdown e.lifetimes.aggregates
  | statCard r =>
    refine .check fun plan => .check fun days => .accepted ?_
    exact comparison_fetches plan.table days.1 days.2 (e.statCardFetch plan) (fun _ => httl)
      (fun found => StatMetric.ofFigures plan.spec (plan.figures found.1) (plan.figures found.2))
      .statCard e.lifetimes.aggregates
  | history r =>
    refine .check fun plan => .accepted ?_
    exact report_yields plan.table .backward _ (admits_true _) (e.historyFetch plan) (fun _ => httl)
      (fun _ => admits_true _)
      (fun _ found => HistorySeries.ofSnapshots plan.spec (found.groupsByDate "snapshot"))
      .history e.lifetimes.aggregates
  | maturity r =>
    refine .check fun plan => .accepted ?_
    exact report_yields plan.table .forward _ (admits_true _) (e.maturityFetch plan) (fun _ => httl)
      (fun _ => admits_true _)
      (fun _ found => MaturitySeries.ofMonths plan.spec (found.groupsByDate "month"))
      .maturity e.lifetimes.aggregates
  | rows r =>
    refine .check fun plan => .accepted ?_
    exact report_yields plan.table .backward _ (admits_true _)
      (fun d => fetchOf (plan.select d) none e.lifetimes.rows) (fun _ => e.lifetimes.rows_mem_all)
      (fun _ => admits_true _) (RowsPage.ofResult plan) .rows e.lifetimes.rows
  | distinct r =>
    refine .check fun plan => .accepted ?_
    exact report_yields plan.table .backward _ (admits_true _)
      (fun d => fetchOf (plan.select d) none e.lifetimes.distinct)
      (fun _ => e.lifetimes.distinct_mem_all) (fun _ => admits_true _)
      (fun _ found => DistinctValues.ofResult plan found) .distinct e.lifetimes.distinct

/-- A text is left without an answer only if a write crashes. -/
theorem mayCrash_of_handleText {text : String} {st : CacheState}
    (h : ((e.handleText s text).run st).1 = none) : e.MayCrash s := by
  cases hread : Request.read? text with
  | none =>
    rw [handleText_of_unreadable hread] at h
    cases h
  | some r =>
    rw [handleText_of_read hread] at h
    -- A request that was read is answered, refused or crashes, and only a crash leaves nothing.
    exact (e.answer_checksFirst s r).mayCrash (Surroundings.envelope_eq_none.mp h)

/-- **Refused requests touch nothing**: if a text is answered by an error that is not one of the
backend, then the whole state of the cache is as before: what is stored, what is counted and what was
sent. The text is refused with the same error in every other state. -/
theorem handleText_refused {text : String} {st st' : CacheState} {err : AnalyticsError}
    (h : (e.handleText s text).run st = (some (.error err), st'))
    (hbackend : err.code ≠ "BACKEND_ERROR") :
    st' = st ∧ ∀ st₁, (e.handleText s text).run st₁ = (some (.error err), st₁) := by
  have hcode (cause : QueryError) : err ≠ .query cause := by
    rintro rfl
    exact hbackend rfl
  -- First the same error in every state; the state that is given is then one of them.
  have hall : ∀ st₁, (e.handleText s text).run st₁ = (some (.error err), st₁) := by
    intro st₁
    cases hread : Request.read? text with
    | none =>
      rw [handleText_of_unreadable hread] at h ⊢
      cases h
      rfl
    | some r =>
      rw [handleText_of_read hread] at h ⊢
      -- An error that no backend can give comes from a check, before anything was fetched.
      have hanswer := Surroundings.envelope_eq_error.mp (congrArg Prod.fst h)
      rw [(e.answer_checksFirst s r).untouched hanswer hcode st₁]
      rfl
  refine ⟨?_, hall⟩
  have hst := hall st
  rw [h, Prod.mk.injEq] at hst
  exact hst.2

/-! A text that asks for the distinct traders, of which the trades know nothing. The store holds one
answer; one was found, one was missed and one could not be stored. -/

def tradersText : String :=
  "\x7b\"kind\":\"distinct\",\"table\":\"trades\",\"field\":\"trader\"\x7d"

def usedState : CacheState :=
  ⟨Store.empty.set lastTime 0 "v:snapshot:trades:backward:1970-01-01" "none" 1000, ⟨1, 1, 1⟩, []⟩

/-- On the first day, with a backend that has no rows for any query. -/
def emptySurroundings : Surroundings Id :=
  .calm ⟨"empty", fun _ _ => .ok ⟨[], [], 0, 0⟩, .ok ()⟩ .inTurn .epoch

theorem handleText_refused_traders :
    (tradesEngine.handleText emptySurroundings tradersText).run usedState =
        (some (.error (.unknownField "trades" "trader")), usedState) ∧
      (tradesEngine.handleText emptySurroundings tradersText).run .initial =
        (some (.error (.unknownField "trades" "trader")), .initial) := by
  have hread : Request.read? tradersText = some (.distinct (.ofField "trades" "trader")) := by
    decide +kernel
  have hrefused : (tradesEngine.handleText emptySurroundings tradersText).run usedState =
      (some (.error (.unknownField "trades" "trader")), usedState) := by
    rw [handleText, hread]
    rfl
  have hbackend : (AnalyticsError.unknownField "trades" "trader").code ≠ "BACKEND_ERROR" := by
    simp [AnalyticsError.code]
  exact ⟨hrefused, (handleText_refused _ _ hrefused hbackend).2 .initial⟩

end Engine

end SnapshotAnalytics

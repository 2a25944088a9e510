import SnapshotAnalytics.Proofs.Calendar.Shifting
import SnapshotAnalytics.Proofs.Engine.Repeats
import SnapshotAnalytics.Proofs.Engine.Resolutions
import SnapshotAnalytics.Proofs.Engine.SemanticKeys

/-!
# The order of compared periods

The day that a report is compared with is not after the day of the report, and looking for snapshots
keeps that order, whether or not there is one for either day. Both snapshots come through the cache, so
this takes more than the answers of the backend to one request: whatever was handled before, what is
stored under the key of a resolution is what a backend answers that holds the snapshots.
-/

namespace SnapshotAnalytics

/-! ## §1 Stored resolutions -/

/-- The backend holds the given snapshots of every table, whatever was sent to it before. -/
def Surroundings.Holds (s : Surroundings Id) (tables : TableRegistry) (days : String → Finset Date) :
    Prop :=
  ∀ name t, tables.table name = .ok t → ∀ sent, t.HeldIn (s.backend.answer sent) (days name)

/-- Under the key of a resolution an answer holds the snapshot to report for the day. -/
def Engine.Honest (e : Engine) (days : String → Finset Date) (key : String) (r : QueryResult) : Prop :=
  ∀ name t direction target, e.tables.table name = .ok t → target.HasFourDigitYear →
    key = e.cache.keyFor (e.resolutionOf t direction target) →
      direction.Reports (days name) target (Resolution.snapshot target r)

namespace Engine

variable {e : Engine} {days : String → Finset Date} {s : Surroundings Id} {name : String}
  {t : TableSchema} {direction : Direction} {target : Date} {f : Fetch}

/-- What is not stored under the key of a resolution may be anything. -/
theorem admits_of_other (hother : ∀ name t direction target, e.tables.table name = .ok t →
      e.cache.keyFor f ≠ e.cache.keyFor (e.resolutionOf t direction target)) :
    e.cache.Admits s.backend (e.Honest days) f := by
  have hhonest (r : QueryResult) : e.Honest days (e.cache.keyFor f) r :=
    fun name t direction target ht _ hkey => absurd hkey (hother name t direction target ht)
  exact fun _ r _ => ⟨hhonest r, fun r' _ => hhonest r'⟩

/-- A listing is stored under a derived key. -/
theorem admits_listing (select : Select) (ttl : Nat) :
    e.cache.Admits s.backend (e.Honest days) (fetchOf select none ttl) := by
  apply admits_of_other
  intro name t direction target _
  exact keyFor_derived_ne e _ _ _ _ _

section

variable (he : e.tables.Registered)

include he

theorem admits_of_isPlain {select : Select} {key : CacheKey} {ttl : Nat} (hplain : key.IsPlain)
    (hother : ∀ table direction target, key ≠ .resolution table direction target) :
    e.cache.Admits s.backend (e.Honest days) (fetchOf select (some key) ttl) := by
  apply admits_of_other
  intro name t direction target ht hkey
  exact hother _ _ _ (eq_of_keyFor_eq hplain (Resolution.isPlain_key (he.of_table ht).2 _ _) hkey)

/-- Under its own key a resolution is answered with the snapshot to report. -/
theorem admits_resolution (hdays : ∀ name, ∀ d ∈ days name, d.HasFourDigitYear)
    (hs : s.Holds e.tables days) (ht : e.tables.table name = .ok t) :
    e.cache.Admits s.backend (e.Honest days) (e.resolutionOf t direction target) := by
  intro sent r hr
  -- The key determines what is asked for, so any resolution that has it is this one.
  have hsame {name' t' direction' target'} (ht' : e.tables.table name' = .ok t')
      (hyear : Date.HasFourDigitYear target')
      (hkey : e.cache.keyFor (e.resolutionOf t direction target) =
        e.cache.keyFor (e.resolutionOf t' direction' target')) :
      QueryResult.decode? r.encode = some r ∧
        direction'.Reports (days name') target' (Resolution.snapshot target' r) := by
    obtain ⟨rfl, rfl, rfl, rfl⟩ := eq_of_keyFor_resolutionOf_eq he ht ht' hkey
    obtain ⟨found, hfound, hback, hreports⟩ :=
      Resolution.reports_snapshot (hs _ _ ht sent) (hdays _) hyear direction
    obtain rfl := Checks.ok_unique hfound hr
    exact ⟨hback, hreports⟩
  refine ⟨fun _ _ _ _ ht' hyear hkey => (hsame ht' hyear hkey).2,
    fun r' hread _ _ _ _ ht' hyear hkey => ?_⟩
  obtain ⟨hback, hreports⟩ := hsame ht' hyear hkey
  obtain rfl : r = r' := Option.some.inj (hback.symm.trans hread)
  exact hreports

/-- Whatever a request asks for under a key of its own. -/
theorem admits_inquiry (hdays : ∀ name, ∀ d ∈ days name, d.HasFourDigitYear)
    (hs : s.Holds e.tables days) {r : Request} {i : Inquiry} (h : r.MayAsk e.tables i) :
    e.cache.Admits s.backend (e.Honest days) (i.fetch e) := by
  have hplain := h.isPlain_key he
  cases h with
  | resolution ht direction target => exact admits_resolution he hdays hs ht
  | _ => exact admits_of_isPlain he hplain fun _ _ _ hkey => by cases hkey

end

end Engine

/-! ## §2 Compared periods -/

/-- The answer to a request for a report on two days gives the snapshots that are reported for them, the
one to compare with not after the other, and neither after the day of the report. There is an error in
its place only if the backend refuses the statement of the report at one of these snapshots. -/
def Envelope.Compares (days : Finset Date) (b : Backend Id) (select : Date → Select)
    (asOf target : Date) (envelope : Envelope) : Prop :=
  ∃ current comparison,
    Direction.backward.Reports days asOf current ∧
    Direction.backward.Reports days target comparison ∧
    comparison ≤ current ∧ current ≤ asOf ∧
    match envelope with
    | .ok a =>
      a.basis.asOf = asOf ∧ a.basis.current = some current ∧ a.basis.comparison = some comparison
    | .error err => b.Refuses [(select current).query, (select comparison).query] err

/-- The days of a request for a report on two days. -/
def Request.window? : Request → Option Window
  | .breakdown r => some r.window
  | .statCard r => some r.window
  | .history _ | .maturity _ | .rows _ | .distinct _ => none

/-- The periods of a request are in order in its answer: if the request is accepted and there is a day to
compare with, this day is not after the day of the report, and as long as the years of both have four
digits, their snapshots are in this order too. There is no answer only if a write crashes. -/
structure Request.InOrder (e : Engine) (days : String → Finset Date) (s : Surroundings Id)
    (r : Request) (envelope : Option Envelope) : Prop where
  ordered : ∀ window t select asOf target, r.window? = some window → r.States e.tables t select →
    window.targets s.today = .ok (asOf, target) →
    target ≤ asOf ∧
      (asOf.HasFourDigitYear ∧ target.HasFourDigitYear →
        ∀ answered ∈ envelope, answered.Compares (days t.name) s.backend select asOf target)
  crashed : envelope = none → e.MayCrash s

namespace Request

variable {e : Engine} {days : String → Finset Date} {s : Surroundings Id} {r : Request}
  {t t' : TableSchema} {select select' : Date → Select} {window : Window} {asOf target : Date}
  {envelope : Option Envelope} {err : AnalyticsError}

/-- A request that passes every check has one table and one report. -/
theorem States.unique {tables : TableRegistry} (h : r.States tables t select)
    (h' : r.States tables t' select') : t' = t ∧ select' = select := by
  cases h <;> rename_i plan h <;> cases h' <;> rename_i plan' h' <;>
    cases Checks.ok_unique h h' <;> exact ⟨rfl, rfl⟩

namespace InOrder

theorem of_window_eq_none (h : r.window? = none) (hcrashed : envelope = none → e.MayCrash s) :
    r.InOrder e days s envelope :=
  ⟨fun _ _ _ _ _ hwindow => (nomatch h.symm.trans hwindow), hcrashed⟩

theorem of_refused (h : ¬ r.Accepted e.tables) : r.InOrder e days s (some (.error err)) :=
  ⟨fun _ t select _ _ _ hstates _ => absurd ⟨t, select, hstates⟩ h, nofun⟩

theorem of_targets_error (hwindow : r.window? = some window) (h : window.targets s.today = .error err) :
    r.InOrder e days s (some (.error err)) := by
  refine ⟨fun window' t select asOf target hwindow' _ htargets => ?_, nofun⟩
  rw [hwindow] at hwindow'
  cases hwindow'
  exact nomatch h.symm.trans htargets

theorem of_compares (hwindow : r.window? = some window) (hstates : r.States e.tables t select)
    (htargets : window.targets s.today = .ok (asOf, target))
    (h : asOf.HasFourDigitYear ∧ target.HasFourDigitYear →
      ∀ answered ∈ envelope, answered.Compares (days t.name) s.backend select asOf target)
    (hcrashed : envelope = none → e.MayCrash s) : r.InOrder e days s envelope := by
  refine ⟨fun window' t' select' asOf' target' hwindow' hstates' htargets' => ?_, hcrashed⟩
  obtain ⟨rfl, rfl⟩ := hstates.unique hstates'
  rw [hwindow] at hwindow'
  cases hwindow'
  cases Checks.ok_unique htargets htargets'
  exact ⟨Window.targets_le htargets, h⟩

end InOrder

end Request

/-! ## §3 Reports -/

namespace Engine

open CacheM

section

variable {e : Engine} {days : String → Finset Date} {s : Surroundings Id} {st : CacheState}
  {name : String} {t : TableSchema} {direction : Direction} {asOf target : Date} {f g : Fetch}
  {α : Type} (he : e.tables.Registered) (hdays : ∀ name, ∀ d ∈ days name, d.HasFourDigitYear)
  (hs : s.Holds e.tables days)

include hdays hs

/-- A backend that holds the snapshots refuses to look for one only if the year of the day does not have
four digits. -/
theorem exists_not_hasFourDigitYear (ht : e.tables.table name = .ok t) {targets : List Date}
    {err : AnalyticsError}
    (h : s.backend.Refuses (targets.map fun d => (e.resolutionOf t direction d).query) err) :
    ∃ d ∈ targets, ¬ d.HasFourDigitYear := by
  cases err with
  | query cause =>
    obtain ⟨sent, q, hq, hrefused⟩ := h
    obtain ⟨d, hd, rfl⟩ := List.mem_map.mp hq
    refine ⟨d, hd, fun hyear => ?_⟩
    obtain ⟨r, hanswer, -⟩ :=
      Resolution.reports_snapshot (hs _ _ ht sent) (hdays name) hyear direction
    exact nomatch hanswer.symm.trans hrefused
  | _ => exact h.elim

include he

/-- For two days whose years have four digits the snapshots to report are found, unless a write
crashes. -/
theorem resolvePair_yields (ht : e.tables.table name = .ok t) :
    Yields (e.Honest days)
      (fun found => asOf.HasFourDigitYear ∧ target.HasFourDigitYear →
        Direction.backward.Reports (days name) asOf found.1 ∧
          Direction.backward.Reports (days name) target found.2)
      (fun halt => if halt = .crash then e.MayCrash s
        else ¬ (asOf.HasFourDigitYear ∧ target.HasFourDigitYear))
      (e.resolvePair s t asOf target) := by
  have hadmits (d : Date) : e.cache.Admits s.backend (e.Honest days) (e.resolutionOf t .backward d) :=
    admits_resolution he hdays hs ht
  have httl := e.lifetimes.snapshot_mem_all
  refine Yields.map ((fetchPair_yields (hadmits asOf) (hadmits target) httl httl .snapshot
    .comparedSnapshot).imp (fun _ h => h) fun halt hhalt => ?_) fun found hhonest hyears => ?_
  · cases halt with
    | crash => exact hhalt
    | error err =>
      intro hyears
      have hresolutions : s.backend.Refuses
          ([asOf, target].map fun d => (e.resolutionOf t .backward d).query) err := hhalt
      -- An honest warehouse refuses a look-up only for a day that it cannot compare.
      obtain ⟨d, hd, hyear⟩ := exists_not_hasFourDigitYear hdays hs ht hresolutions
      rcases List.mem_pair.mp hd with rfl | rfl
      · exact hyear hyears.1
      · exact hyear hyears.2
  · exact ⟨hhonest.1 name t .backward asOf ht hyears.1 rfl,
      hhonest.2 name t .backward target ht hyears.2 rfl⟩

/-- A report on two days has its periods in order, whether it is made or refused. -/
theorem comparison_inOrder (ht : e.tables.table t.name = .ok t) {r : Request} {window : Window}
    {select : Date → Select} (hwindow : r.window? = some window) (hstates : r.States e.tables t select)
    (htargets : window.targets s.today = .ok (asOf, target)) (key : Date → CacheKey) {ttl : Nat}
    (httl : ttl ∈ e.lifetimes.all)
    (hfetch : ∀ d, e.cache.Admits s.backend (e.Honest days) (fetchOf (select d) (some (key d)) ttl))
    (report : QueryResult × QueryResult → α) (payload : α → Payload) :
    Yields (e.Honest days) (fun a => r.InOrder e days s (s.envelope (.ok a)))
      (fun halt => r.InOrder e days s (s.envelope (.error halt)))
      (do
        let found ← e.resolvePair s t asOf target
        let a ← (do
          let figures ← e.fetchPair s .figures .comparedFigures
            (fetchOf (select found.1) (some (key found.1)) ttl)
            (fetchOf (select found.2) (some (key found.2)) ttl)
          return report figures)
        return (⟨payload a, ⟨t.name, asOf, some found.1, some found.2, ttl, 0⟩⟩ : Answer)) := by
  have hle : target ≤ asOf := Window.targets_le htargets
  have hcompares {envelope : Option Envelope}
      (h : asOf.HasFourDigitYear ∧ target.HasFourDigitYear →
        ∀ answered ∈ envelope, answered.Compares (days t.name) s.backend select asOf target)
      (hcrashed : envelope = none → e.MayCrash s) : r.InOrder e days s envelope :=
    .of_compares hwindow hstates htargets h hcrashed
  -- The report stops at the look-up of the days, at the figures, or not at all.
  refine ((resolvePair_yields he hdays hs ht).imp (fun _ h => h) fun halt hhalt => ?_).bind
    fun found hreports => ?_
  · cases halt with
    | crash => exact hcompares (fun _ _ h => nomatch h) fun _ => hhalt
    | error err => exact hcompares (fun hyears => absurd hyears hhalt) nofun
  have hreport := (fetchPair_yields (hfetch found.1) (hfetch found.2) httl httl .figures
    .comparedFigures).map (f := report) (Q := fun _ => True) fun _ _ => trivial
  refine (hreport.imp (fun _ h => h) fun halt hhalt => ?_).map fun a _ => ?_
  · cases halt with
    | crash => exact hcompares (fun _ _ h => nomatch h) fun _ => hhalt
    | error err =>
      refine hcompares (fun hyears answered hanswered => ?_) nofun
      cases hanswered
      obtain ⟨hcurrent, hcomparison⟩ := hreports hyears
      -- The figures are refused for days that are in order already.
      exact ⟨found.1, found.2, hcurrent, hcomparison, hcomparison.mono hcurrent hle, hcurrent.le,
        hhalt⟩
  · refine hcompares (fun hyears answered hanswered => ?_) nofun
    cases hanswered
    obtain ⟨hcurrent, hcomparison⟩ := hreports hyears
    exact ⟨found.1, found.2, hcurrent, hcomparison, hcomparison.mono hcurrent hle, hcurrent.le,
      rfl, rfl, rfl⟩

/-! ## §4 Requests -/

/-- A step: the answer to a request has its periods in order, and what it leaves in the store is
honest. -/
theorem answer_inOrder (r : Request) :
    Yields (e.Honest days) (fun a => r.InOrder e days s (s.envelope (.ok a)))
      (fun halt => r.InOrder e days s (s.envelope (.error halt))) (e.answer s r) := by
  have hadmits {i : Inquiry} (h : r.MayAsk e.tables i) :
      e.cache.Admits s.backend (e.Honest days) (i.fetch e) :=
    admits_inquiry he hdays hs h
  -- A request without a window compares nothing, so all that counts is that it does not crash.
  have hnoWindow (h : r.window? = none) {x : EngineM Id Answer}
      (hx : Yields (e.Honest days) (fun _ => True) (e.Halted s) x) :
      Yields (e.Honest days) (fun a => r.InOrder e days s (s.envelope (.ok a)))
        (fun halt => r.InOrder e days s (s.envelope (.error halt))) x := by
    refine hx.imp (fun _ _ => .of_window_eq_none h nofun) fun halt hhalt => .of_window_eq_none h ?_
    cases halt with
    | crash =>
      obtain ⟨_, hcrash⟩ := hhalt
      exact fun _ => hcrash
    | error err => exact nofun
  -- Two kinds compare periods; the other four have no window.
  cases r with
  | breakdown r =>
    refine check_yields (fun err herr => .of_refused ?_) fun plan hplan =>
      check_yields (fun err herr => .of_targets_error rfl herr) fun targets htargets => ?_
    · rintro ⟨t, select, hstates⟩
      cases hstates with
      | breakdown h => exact nomatch herr.symm.trans h
    · have ht := he.table_name (BreakdownPlan.prepared hplan).1.table
      exact comparison_inOrder he hdays hs ht rfl (.breakdown hplan) htargets plan.key
        e.lifetimes.aggregates_mem_all (fun d => hadmits (i := .breakdown plan d) (.breakdown hplan d))
        (fun found => Breakdown.rows plan.spec (plan.groups found.1) (plan.groups found.2)) .breakdown
  | statCard r =>
    refine check_yields (fun err herr => .of_refused ?_) fun plan hplan =>
      check_yields (fun err herr => .of_targets_error rfl herr) fun targets htargets => ?_
    · rintro ⟨t, select, hstates⟩
      cases hstates with
      | statCard h => exact nomatch herr.symm.trans h
    · have ht := he.table_name (StatCardPlan.prepared hplan).1.table
      exact comparison_inOrder he hdays hs ht rfl (.statCard hplan) htargets plan.key
        e.lifetimes.aggregates_mem_all (fun d => hadmits (i := .statCard plan d) (.statCard hplan d))
        (fun found => StatMetric.ofFigures plan.spec (plan.figures found.1) (plan.figures found.2))
        .statCard
  | history r =>
    refine check_yields (fun _ _ => .of_window_eq_none rfl nofun) fun plan hplan => hnoWindow rfl ?_
    exact report_yields plan.table .backward _
      (admits_resolution he hdays hs (HistoryPlan.prepared hplan).1.table) (e.historyFetch plan)
      (fun _ => e.lifetimes.aggregates_mem_all)
      (fun d => hadmits (i := .history plan d) (.history hplan d))
      (fun _ found => HistorySeries.ofSnapshots plan.spec (found.groupsByDate "snapshot"))
      .history e.lifetimes.aggregates
  | maturity r =>
    refine check_yields (fun _ _ => .of_window_eq_none rfl nofun) fun plan hplan => hnoWindow rfl ?_
    exact report_yields plan.table .forward _
      (admits_resolution he hdays hs (MaturityPlan.prepared hplan).1.table) (e.maturityFetch plan)
      (fun _ => e.lifetimes.aggregates_mem_all)
      (fun d => hadmits (i := .maturity plan d) (.maturity hplan d))
      (fun _ found => MaturitySeries.ofMonths plan.spec (found.groupsByDate "month"))
      .maturity e.lifetimes.aggregates
  | rows r =>
    refine check_yields (fun _ _ => .of_window_eq_none rfl nofun) fun plan hplan => hnoWindow rfl ?_
    exact report_yields plan.table .backward _
      (admits_resolution he hdays hs (RowsPlan.prepared hplan).1.table)
      (fun d => fetchOf (plan.select d) none e.lifetimes.rows)
      (fun _ => e.lifetimes.rows_mem_all) (fun _ => admits_listing _ _)
      (RowsPage.ofResult plan) .rows e.lifetimes.rows
  | distinct r =>
    refine check_yields (fun _ _ => .of_window_eq_none rfl nofun) fun plan hplan => hnoWindow rfl ?_
    exact report_yields plan.table .backward _
      (admits_resolution he hdays hs (DistinctPlan.prepared hplan).1.table)
      (fun d => fetchOf (plan.select d) none e.lifetimes.distinct)
      (fun _ => e.lifetimes.distinct_mem_all) (fun _ => admits_listing _ _)
      (fun _ found => DistinctValues.ofResult plan found) .distinct e.lifetimes.distinct

/-- The time it took to answer changes nothing about the periods. -/
theorem handle_inOrder (hst : st.HoldsOnly (e.Honest days)) (r : Request) :
    ((e.handle s r).run st).2.HoldsOnly (e.Honest days) ∧
      r.InOrder e days s ((e.handle s r).run st).1 := by
  obtain ⟨hst', hresult⟩ := answer_inOrder he hdays hs r st hst
  rw [handle_run]
  refine ⟨hst', ?_⟩
  rcases hanswer : ((e.answer s r).run.run st).1 with halt | a <;> rw [hanswer] at hresult <;>
    exact hresult

end

/-- **The comparison never lies after the current period**: with backends that hold the same snapshots
of the tables, and from a store that is empty or holds nothing readable, every request of a run that is
for a report on two days is answered with its periods in order. The day to compare with is not after
the day of the report, its snapshot is not after that of the report, and this one is not after the day
of the report, whether snapshots are found for both days, for one of them or for none. A request is
left without an answer only if a write crashes. -/
theorem comparison_le_current (e : Engine) (he : e.tables.Registered) (days : String → Finset Date)
    (hdays : ∀ name, ∀ d ∈ days name, d.HasFourDigitYear)
    (requests : List (Surroundings Id × Request))
    (hheld : ∀ x ∈ requests, x.1.Holds e.tables days) (st : CacheState)
    (hstart : ∀ entry ∈ st.store.entries, QueryResult.decode? entry.2.value = none) :
    List.Forall₂ (fun x envelope => x.2.InOrder e days x.1 envelope) requests
      ((e.handleAll requests).run st).1 := by
  have hst : st.HoldsOnly (e.Honest days) := .of_unreadable hstart
  clear hstart
  -- Each request leaves an honest store to the requests behind it.
  induction requests generalizing st with
  | nil => exact .nil
  | cons x requests ih =>
    obtain ⟨hx, hheld⟩ := List.forall_mem_cons.mp hheld
    obtain ⟨hst', horder⟩ := handle_inOrder he hdays hx hst x.2
    rw [handleAll, List.mapM_cons]
    exact .cons horder (ih hheld _ hst')

/-! Reports on trades and prices, over the snapshots of both: with snapshots for both days, for one of
them, and for none. -/

open ResolutionStep (heldAnswer heldDays heldEngine)

/-- A warehouse that holds both tables, and has no rows for any other query. -/
def heldBackend : Backend Id :=
  ⟨"held", fun _ q => match heldAnswer q with
    | .ok r => .ok r
    | .error _ => .ok ⟨[], [], 0, 0⟩, .ok ()⟩

def heldRequests : List (Surroundings Id × Request) :=
  let at_ (pacing : Cache.Pacing) (today : Date) : Surroundings Id :=
    .calm heldBackend pacing today
  [(at_ .inTurn ⟨2024, 2, 15, by decide⟩,
      .statCard ⟨⟨"trades", [⟨"days", .sum "day"⟩]⟩, [], ⟨none, some .previousMonth, none⟩⟩),
    (at_ .together ⟨1000, 1, 15, by decide⟩,
      .breakdown ⟨.ofMeasure "trades" (.sum "day"), "day", [], ⟨none, some .previousMonth, none⟩⟩),
    (at_ .inTurn ⟨2024, 2, 15, by decide⟩,
      .breakdown ⟨.ofMeasure "market.prices" (.sum "as_of"), "as_of", [],
        ⟨none, none, some .epoch⟩⟩)]

theorem comparison_le_current_held :
    let days (name : String) : Finset Date := (heldDays name).toFinset
    (∀ x ∈ heldRequests, x.2.Accepted heldEngine.tables ∧ ∃ window asOf target,
      x.2.window? = some window ∧ window.targets x.1.today = .ok (asOf, target) ∧
        asOf.HasFourDigitYear ∧ target.HasFourDigitYear) ∧
      (∀ x ∈ heldRequests, ¬ heldEngine.MayCrash x.1) ∧
      List.Forall₂ (fun x envelope => x.2.InOrder heldEngine days x.1 envelope) heldRequests
        ((heldEngine.handleAll heldRequests).run .initial).1 := by
  refine ⟨?_, ?_, ?_⟩
  · -- Each request is accepted, for days with four digits in their years.
    simp only [heldRequests, List.forall_mem_cons, List.not_mem_nil, false_implies, implies_true,
      and_true]
    refine ⟨⟨⟨_, _, .statCard rfl⟩, _, _, _, rfl, rfl, by decide, by decide⟩,
      ⟨⟨_, _, .breakdown rfl⟩, _, _, _, rfl, rfl, by decide, by decide⟩,
      ⟨⟨_, _, .breakdown rfl⟩, _, _, _, rfl, rfl, by decide, by decide⟩⟩
  · simp only [heldRequests, List.forall_mem_cons, List.not_mem_nil, false_implies, implies_true,
      and_true]
    exact ⟨not_mayCrash_calm (by decide), not_mayCrash_calm (by decide), not_mayCrash_calm (by decide)⟩
  · apply comparison_le_current heldEngine ResolutionStep.registered_held
    · intro name d hd
      exact ((ResolutionStep.heldDays_ok name).2 d (List.mem_toFinset.mp hd)).1
    · intro x hx name t ht sent
      -- All three requests are sent to the same warehouse.
      have hbackend : x.1.backend = heldBackend := by
        simp only [heldRequests, List.mem_cons, List.not_mem_nil, or_false] at hx
        rcases hx with rfl | rfl | rfl <;> rfl
      rw [hbackend]
      refine (ResolutionStep.held_of_table ht).mono fun q r hr => ?_
      simp only [heldBackend, hr]
    · simp [CacheState.initial, Store.empty]

end Engine

end SnapshotAnalytics

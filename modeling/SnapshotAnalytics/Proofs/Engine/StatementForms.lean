import SnapshotAnalytics.Engine.Basic
import SnapshotAnalytics.Proofs.Cache.Sent
import SnapshotAnalytics.Proofs.Report.Blanks

/-!
# Values never reach the text of a statement

What is sent for a request are the statements that look for the snapshots of its days and then the
statements of its report at these snapshots. Two requests that differ only in the values of their
filters, in how operators that are not recognised are spelled, and in their days send statements of
the same forms: the same texts that bind the same names and types.
-/

namespace SnapshotAnalytics

open Checks

/-! ## §1 Requests without their values -/

/-- A window with fixed days in place of those that are given. -/
def Window.blank (w : Window) : Window :=
  ⟨w.asOf.map fun _ => .epoch, w.period, w.compareDate.map fun _ => .epoch⟩

namespace Request

/-- A request with empty values in its filters, without the spellings of operators that are not
recognised, and with fixed days in place of those that are given. -/
def blank : Request → Request
  | breakdown r =>
    breakdown { r with filters := r.filters.map Filter.blank, window := r.window.blank }
  | statCard r =>
    statCard { r with filters := r.filters.map Filter.blank, window := r.window.blank }
  | history r =>
    history ⟨r.spec.blank, r.filters.map Filter.blank, r.asOf.map fun _ => .epoch⟩
  | maturity r =>
    maturity ⟨r.spec, r.filters.map Filter.blank, r.asOf.map fun _ => .epoch⟩
  | rows r =>
    rows { r with filters := r.filters.map Filter.blank, asOf := r.asOf.map fun _ => .epoch }
  | distinct r =>
    distinct { r with filters := r.filters.map Filter.blank, asOf := r.asOf.map fun _ => .epoch }

/-! ## §2 Statements of a request -/

/-- A request that passes every check: its table, and the statement of its report by snapshot. -/
inductive States (tables : TableRegistry) : Request → TableSchema → (Date → Select) → Prop
  | breakdown {r : BreakdownRequest} {plan : BreakdownPlan}
      (h : BreakdownPlan.prepare tables r.spec r.groupBy r.filters = .ok plan) :
      States tables (.breakdown r) plan.table plan.select
  | statCard {r : StatCardRequest} {plan : StatCardPlan}
      (h : StatCardPlan.prepare tables r.spec r.filters = .ok plan) :
      States tables (.statCard r) plan.table plan.select
  | history {r : HistoryRequest} {plan : HistoryPlan}
      (h : HistoryPlan.prepare tables r.spec r.filters = .ok plan) :
      States tables (.history r) plan.table plan.select
  | maturity {r : MaturityRequest} {plan : MaturityPlan}
      (h : MaturityPlan.prepare tables r.spec r.filters = .ok plan) :
      States tables (.maturity r) plan.table plan.select
  | rows {r : RowsRequest} {plan : RowsPlan} (h : RowsPlan.prepare tables r = .ok plan) :
      States tables (.rows r) plan.table plan.select
  | distinct {r : DistinctRequest} {plan : DistinctPlan}
      (h : DistinctPlan.prepare tables r = .ok plan) :
      States tables (.distinct r) plan.table plan.select

/-- A request that passes every check. -/
def Accepted (tables : TableRegistry) (r : Request) : Prop :=
  ∃ t select, r.States tables t select

/-- For how many days the report of a request is made: two when it compares. -/
def periods : Request → Nat
  | breakdown _ | statCard _ => 2
  | history _ | maturity _ | rows _ | distinct _ => 1

/-- In which direction the snapshots of a request are looked for. -/
def direction : Request → Direction
  | maturity _ => .forward
  | breakdown _ | statCard _ | history _ | rows _ | distinct _ => .backward

section

variable {tables : TableRegistry} {r r' : Request} {t t' : TableSchema} {s s' : Date → Select}

theorem periods_eq_of_blank_eq (h : r.blank = r'.blank) : r.periods = r'.periods := by
  cases r <;> cases r' <;> simp_all [blank, periods]

theorem direction_eq_of_blank_eq (h : r.blank = r'.blank) : r.direction = r'.direction := by
  cases r <;> cases r' <;> simp_all [blank, direction]

/-- Requests that are the same once their values are blanked out are for the same table, and so are
the statements of their reports, at whatever snapshots. -/
theorem States.blank_eq (h : r.blank = r'.blank) (hr : r.States tables t s)
    (hr' : r'.States tables t' s') : t = t' ∧ ∀ d d', (s d).blank = (s' d').blank := by
  -- Requests of two kinds differ, blanked out or not.
  cases hr with
  | breakdown hplan =>
    cases hr' with
    | breakdown hplan' =>
      simp only [blank, breakdown.injEq, BreakdownRequest.mk.injEq] at h
      obtain ⟨hspec, hgroup, hfilters, _⟩ := h
      exact BreakdownPlan.blank_select_eq hfilters hplan (hspec ▸ hgroup ▸ hplan')
    | _ => cases h
  | statCard hplan =>
    cases hr' with
    | statCard hplan' =>
      simp only [blank, statCard.injEq, StatCardRequest.mk.injEq] at h
      obtain ⟨hspec, hfilters, _⟩ := h
      exact StatCardPlan.blank_select_eq hfilters hplan (hspec ▸ hplan')
    | _ => cases h
  | history hplan =>
    cases hr' with
    | history hplan' =>
      simp only [blank, history.injEq, HistoryRequest.mk.injEq] at h
      obtain ⟨hspec, hfilters, _⟩ := h
      exact HistoryPlan.blank_select_eq hfilters hspec hplan hplan'
    | _ => cases h
  | maturity hplan =>
    cases hr' with
    | maturity hplan' =>
      simp only [blank, maturity.injEq, MaturityRequest.mk.injEq] at h
      obtain ⟨hspec, hfilters, _⟩ := h
      exact MaturityPlan.blank_select_eq hfilters hplan (hspec ▸ hplan')
    | _ => cases h
  | rows hplan =>
    cases hr' with
    | rows hplan' =>
      simp only [blank, rows.injEq, RowsRequest.mk.injEq] at h
      obtain ⟨htable, hcolumns, hfilters, horder, hdescending, hlimit, hoffset, _⟩ := h
      exact RowsPlan.blank_select_eq hfilters htable hcolumns horder hdescending hlimit hoffset
        hplan hplan'
    | _ => cases h
  | distinct hplan =>
    cases hr' with
    | distinct hplan' =>
      simp only [blank, distinct.injEq, DistinctRequest.mk.injEq] at h
      obtain ⟨htable, hfield, hfilters, hlimit, _⟩ := h
      exact DistinctPlan.blank_select_eq hfilters htable hfield hlimit hplan hplan'
    | _ => cases h

end

end Request

/-! ## §3 What is sent for a request -/

namespace Cache.Sends

variable {α β : Type} {c : Cache} {forms : List QueryForm} {k : α → EngineM Id β}

/-- A check sends nothing, whether it succeeds or not. -/
theorem checked {x : Except AnalyticsError α} (hk : ∀ a, c.Sends forms (k a)) :
    c.Sends forms (Engine.check x >>= k) := by
  intro st
  cases x with
  | error err =>
    refine ⟨[], ?_, List.nil_sublist _, fun _ _ h => by cases h⟩
    exact (List.append_nil _).symm
  | ok a => exact hk a st

/-- What is sent behind a check that is known to succeed. -/
theorem check {x : Except AnalyticsError α} {a : α} (hx : x = .ok a) (hk : c.Sends forms (k a)) :
    c.Sends forms (Engine.check x >>= k) := by
  subst hx
  exact hk

end Cache.Sends

namespace Engine

variable {e : Engine} {s : Surroundings Id} {r : Request} {t : TableSchema} {select : Date → Select}
  {lookup report : QueryForm}

/-- What is fetched for a selection is the answer to its query. -/
theorem sends_fetch (e : Engine) (s : Surroundings Id) (stage : Stage) (select : Select)
    (key : Option CacheKey) (ttl : Nat) :
    e.cache.Sends [select.query.form] (e.fetch s stage (fetchOf select key ttl)) :=
  (Cache.Sends.query e.cache s.backend (s.timing stage) (fetchOf select key ttl)).adapt _

theorem sends_fetchPair (e : Engine) (s : Surroundings Id) (stage stage' : Stage)
    (select select' : Select) (key key' : Option CacheKey) (ttl ttl' : Nat) :
    e.cache.Sends [select.query.form, select'.query.form]
      (e.fetchPair s stage stage' (fetchOf select key ttl) (fetchOf select' key' ttl')) :=
  (Cache.Sends.queryPair e.cache s.backend (s.timing stage) (s.timing stage') s.pacing
    (fetchOf select key ttl) (fetchOf select' key' ttl')).adapt _

theorem sends_resolve {direction : Direction}
    (hlookup : ∀ d, (Resolution.select t direction d).query.form = lookup) (target : Date) :
    e.cache.Sends [lookup] (e.resolve s t direction target) := by
  rw [← hlookup target]
  exact (e.sends_fetch s .snapshot (Resolution.select t direction target) _ _).map _

theorem sends_resolvePair (hlookup : ∀ d, (Resolution.select t .backward d).query.form = lookup)
    (current comparison : Date) :
    e.cache.Sends [lookup, lookup] (e.resolvePair s t current comparison) := by
  have hpair := e.sends_fetchPair s .snapshot .comparedSnapshot
    (Resolution.select t .backward current) (Resolution.select t .backward comparison)
    (some (Resolution.key t .backward current)) (some (Resolution.key t .backward comparison))
    e.lifetimes.snapshot e.lifetimes.snapshot
  rw [hlookup, hlookup] at hpair
  exact hpair.map fun found =>
    (Resolution.snapshot current found.1, Resolution.snapshot comparison found.2)

theorem sends_breakdownAt {plan : BreakdownPlan}
    (hreport : ∀ d, (plan.select d).query.form = report) (current comparison : Date) :
    e.cache.Sends [report, report] (e.breakdownAt s plan current comparison) := by
  have hpair := e.sends_fetchPair s .figures .comparedFigures (plan.select current)
    (plan.select comparison) (some (plan.key current)) (some (plan.key comparison))
    e.lifetimes.aggregates e.lifetimes.aggregates
  rw [hreport, hreport] at hpair
  exact hpair.map fun found =>
    Breakdown.rows plan.spec (plan.groups found.1) (plan.groups found.2)

theorem sends_statCardAt {plan : StatCardPlan}
    (hreport : ∀ d, (plan.select d).query.form = report) (current comparison : Date) :
    e.cache.Sends [report, report] (e.statCardAt s plan current comparison) := by
  have hpair := e.sends_fetchPair s .figures .comparedFigures (plan.select current)
    (plan.select comparison) (some (plan.key current)) (some (plan.key comparison))
    e.lifetimes.aggregates e.lifetimes.aggregates
  rw [hreport, hreport] at hpair
  exact hpair.map fun found =>
    StatMetric.ofFigures plan.spec (plan.figures found.1) (plan.figures found.2)

theorem sends_historyAt {plan : HistoryPlan}
    (hreport : ∀ d, (plan.select d).query.form = report) (base : Date) :
    e.cache.Sends [report] (e.historyAt s plan base) := by
  rw [← hreport base]
  exact (e.sends_fetch s .figures (plan.select base) _ _).map _

theorem sends_maturityAt {plan : MaturityPlan}
    (hreport : ∀ d, (plan.select d).query.form = report) (snapshot : Date) :
    e.cache.Sends [report] (e.maturityAt s plan snapshot) := by
  rw [← hreport snapshot]
  exact (e.sends_fetch s .figures (plan.select snapshot) _ _).map _

theorem sends_rowsAt {plan : RowsPlan}
    (hreport : ∀ d, (plan.select d).query.form = report) (snapshot : Date) :
    e.cache.Sends [report] (e.rowsAt s plan snapshot) := by
  rw [← hreport snapshot]
  exact (e.sends_fetch s .figures (plan.select snapshot) _ _).map _

theorem sends_distinctAt {plan : DistinctPlan}
    (hreport : ∀ d, (plan.select d).query.form = report) (snapshot : Date) :
    e.cache.Sends [report] (e.distinctAt s plan snapshot) := by
  rw [← hreport snapshot]
  exact (e.sends_fetch s .figures (plan.select snapshot) _ _).map _

/-- For a report at given snapshots its statement is sent, once for each of them. -/
theorem sends_computeAt (s : Surroundings Id) (hr : r.States e.tables t select)
    (hreport : ∀ d, (select d).query.form = report) (current comparison : Date) :
    e.cache.Sends (List.replicate r.periods report) (e.computeAt s current comparison r) := by
  cases hr with
  | breakdown hplan =>
    exact .check hplan ((sends_breakdownAt hreport current comparison).map Payload.breakdown)
  | statCard hplan =>
    exact .check hplan ((sends_statCardAt hreport current comparison).map Payload.statCard)
  | history hplan => exact .check hplan ((sends_historyAt hreport current).map Payload.history)
  | maturity hplan => exact .check hplan ((sends_maturityAt hreport current).map Payload.maturity)
  | rows hplan => exact .check hplan ((sends_rowsAt hreport current).map Payload.rows)
  | distinct hplan => exact .check hplan ((sends_distinctAt hreport current).map Payload.distinct)

/-- For an answer the statement that looks for a snapshot is sent, once for each day of the request,
and then the statement of its report. -/
theorem sends_answer (s : Surroundings Id) (hr : r.States e.tables t select)
    (hlookup : ∀ d, (Resolution.select t r.direction d).query.form = lookup)
    (hreport : ∀ d, (select d).query.form = report) :
    e.cache.Sends (List.replicate r.periods lookup ++ List.replicate r.periods report)
      (e.answer s r) := by
  -- The days are resolved first, two of them or one, and then as many reports are fetched.
  cases hr with
  | @breakdown r plan hplan =>
    refine .check hplan (.checked fun days => ?_)
    refine (sends_resolvePair hlookup days.1 days.2).bind fun found => ?_
    exact (sends_breakdownAt hreport found.1 found.2).map _
  | @statCard r plan hplan =>
    refine .check hplan (.checked fun days => ?_)
    refine (sends_resolvePair hlookup days.1 days.2).bind fun found => ?_
    exact (sends_statCardAt hreport found.1 found.2).map _
  | history hplan =>
    refine .check hplan ((sends_resolve hlookup _).bind fun base => ?_)
    exact (sends_historyAt hreport base).map _
  | maturity hplan =>
    refine .check hplan ((sends_resolve hlookup _).bind fun snapshot => ?_)
    exact (sends_maturityAt hreport snapshot).map _
  | rows hplan =>
    refine .check hplan ((sends_resolve hlookup _).bind fun snapshot => ?_)
    exact (sends_rowsAt hreport snapshot).map _
  | distinct hplan =>
    refine .check hplan ((sends_resolve hlookup _).bind fun snapshot => ?_)
    exact (sends_distinctAt hreport snapshot).map _

/-- The forms of what is sent for a request: when it is answered, first those of the statements that
look for its snapshots and then those of the statements of its report; and only the latter when the
snapshots are given. -/
structure SendsForms (e : Engine) (r : Request) (lookups reports : List QueryForm) : Prop where
  answer : ∀ s : Surroundings Id, e.cache.Sends (lookups ++ reports) (e.answer s r)
  computeAt : ∀ (s : Surroundings Id) (current comparison : Date),
    e.cache.Sends reports (e.computeAt s current comparison r)

theorem SendsForms.of_states (hr : r.States e.tables t select)
    (hlookup : ∀ d, (Resolution.select t r.direction d).query.form = lookup)
    (hreport : ∀ d, (select d).query.form = report) :
    e.SendsForms r (List.replicate r.periods lookup) (List.replicate r.periods report) :=
  ⟨fun s => sends_answer s hr hlookup hreport,
    fun s current comparison => sends_computeAt s hr hreport current comparison⟩

/-- **Values never reach the text of a statement**: two accepted requests over one registry that are
the same once their values are blanked out send statements of the same forms, whatever day it is,
whatever the snapshots are and whatever is stored. -/
theorem sendsForms_of_blank_eq (e : Engine) (r r' : Request) (hsame : r.blank = r'.blank)
    (hr : r.Accepted e.tables) (hr' : r'.Accepted e.tables) :
    ∃ lookup report : QueryForm,
      e.SendsForms r (List.replicate r.periods lookup) (List.replicate r.periods report) ∧
        e.SendsForms r' (List.replicate r.periods lookup) (List.replicate r.periods report) := by
  obtain ⟨t, select, hr⟩ := hr
  obtain ⟨t', select', hr'⟩ := hr'
  obtain ⟨rfl, hselect⟩ := Request.States.blank_eq hsame hr hr'
  refine ⟨(Resolution.select t r.direction .epoch).query.form, (select .epoch).query.form,
    .of_states hr ?_ ?_, ?_⟩
  · intro d
    exact Select.form_eq_of_blank_eq (Resolution.blank_select t r.direction d .epoch)
  · intro d
    -- The statement of one request at two snapshots is that of two requests that are the same.
    exact Select.form_eq_of_blank_eq ((Request.States.blank_eq rfl hr hr).2 d .epoch)
  · rw [Request.periods_eq_of_blank_eq hsame, Request.direction_eq_of_blank_eq hsame]
    refine .of_states hr' ?_ ?_
    · intro d
      exact Select.form_eq_of_blank_eq (Resolution.blank_select t r'.direction d .epoch)
    · intro d
      exact Select.form_eq_of_blank_eq (hselect .epoch d).symm

/-! Two requests for the traded sizes by desk: the values of one are written as if they were part
of the statement, as is the spelling of an operator that is not recognised. -/

/-- Trades with the sizes and days of theirs. -/
def trades : TableSchema :=
  (((TableSchema.ofDateColumn "trades" "day" .compact).withField "desk" .text).withField
    "size" .number).withField "settles" .date

def tradesEngine : Engine :=
  ⟨⟨"v", true⟩, [("trades", trades)], .default⟩

/-- The traded sizes by desk, for filters by desk, size and day. -/
def tradesRequest (spelling desk size settles : String) (asOf : Date) : Request :=
  .breakdown ⟨.ofMeasure "trades" (.sum "size"), "desk",
    [⟨"desk", .unrecognized spelling, [desk]⟩, ⟨"size", .greaterThan, [size]⟩,
      ⟨"settles", .oneOf, [settles, "2024-03-01"]⟩], ⟨some asOf, some .previousDay, none⟩⟩

theorem sendsForms_of_blank_eq_trades :
    let r := tradesRequest "like" "EQ" "1e2" "2024-02-29" .epoch
    let r' := tradesRequest "= 1 OR" "x\') OR (1 = 1" " -0.5 " "20240229" ⟨2024, 2, 29, by decide⟩
    r ≠ r' ∧ ∃ lookup report : QueryForm,
      tradesEngine.SendsForms r (List.replicate 2 lookup) (List.replicate 2 report) ∧
        tradesEngine.SendsForms r' (List.replicate 2 lookup) (List.replicate 2 report) := by
  intro r r'
  refine ⟨by decide, sendsForms_of_blank_eq tradesEngine r r' rfl ?_ ?_⟩
  · exact ⟨_, _, .breakdown rfl⟩
  · exact ⟨_, _, .breakdown rfl⟩

end Engine

end SnapshotAnalytics

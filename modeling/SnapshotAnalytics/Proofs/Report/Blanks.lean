import SnapshotAnalytics.Proofs.Filter.Blanks
import SnapshotAnalytics.Proofs.Report.Plans
import SnapshotAnalytics.Report.Resolution

/-!
# Statements of reports without their values

The statement of a report is put together from what was asked for, a snapshot and compiled filters.
The snapshot and the filters are bound, so for two plans that were prepared from the same
specification and from filters that differ only in their values, the statements are the same once the
values are blanked out, at whatever snapshots.
-/

namespace SnapshotAnalytics

open Checks

/-! ## §1 Conditions -/

/-- A date shows only as a placeholder. -/
theorem TableSchema.blank_dateCondition (t : TableSchema) (symbol name : String) (d d' : Date) :
    (t.dateCondition symbol name d).blank = (t.dateCondition symbol name d').blank :=
  rfl

/-- A date that may be left out shows only whether it is there. -/
theorem TableSchema.blank_dateConditions (t : TableSchema) (symbol name : String)
    {d d' : Option Date} (h : d.map (fun _ => Date.epoch) = d'.map fun _ => .epoch) :
    ((d.map (t.dateCondition symbol name)).toList).map Fragment.blank =
      ((d'.map (t.dateCondition symbol name)).toList).map Fragment.blank := by
  cases d with
  | none =>
    cases d' with
    | none => rfl
    | some d' => cases h
  | some d =>
    cases d' with
    | none => cases h
    | some d' => rfl

theorem Predicate.blank_conditions_eq {p p' : Predicate} (h : p.blank = p'.blank) :
    p.conditions.map Fragment.blank = p'.conditions.map Fragment.blank := by
  rw [blank_conditions, h, blank_conditions]

variable {tables : TableRegistry} {filters filters' : List Filter}

/-- Filters that are the same once they are blanked out are compiled to such predicates. -/
theorem Predicate.blank_compile_eq {t : TableSchema}
    (hfilters : filters.map Filter.blank = filters'.map Filter.blank) {p p' : Predicate}
    (h : compile t filters = .ok p) (h' : compile t filters' = .ok p') : p.blank = p'.blank :=
  blank_compileFrom_eq hfilters h h'

/-! ## §2 Breakdowns and stat cards -/

theorem BreakdownPlan.blank_select_eq (hfilters : filters.map Filter.blank = filters'.map Filter.blank)
    {spec : BreakdownSpec} {groupBy : String} {plan plan' : BreakdownPlan}
    (h : prepare tables spec groupBy filters = .ok plan)
    (h' : prepare tables spec groupBy filters' = .ok plan') :
    plan.table = plan'.table ∧ ∀ d d', (plan.select d).blank = (plan'.select d').blank := by
  obtain ⟨hplan, rfl, rfl, rfl⟩ := prepared h
  obtain ⟨hplan', hspec, hgroup, rfl⟩ := prepared h'
  have htable : plan.table = plan'.table :=
    ok_unique hplan.table (hspec ▸ hplan'.table)
  have hpredicate := Predicate.blank_compile_eq hfilters hplan.predicate (htable ▸ hplan'.predicate)
  refine ⟨htable, fun d d' => ?_⟩
  simp only [select, Select.blank, order, List.map_cons, htable, hspec, hgroup,
    Predicate.blank_conditions_eq hpredicate, TableSchema.blank_dateCondition _ _ _ d d']

theorem StatCardPlan.blank_select_eq (hfilters : filters.map Filter.blank = filters'.map Filter.blank)
    {spec : StatCardSpec} {plan plan' : StatCardPlan}
    (h : prepare tables spec filters = .ok plan) (h' : prepare tables spec filters' = .ok plan') :
    plan.table = plan'.table ∧ ∀ d d', (plan.select d).blank = (plan'.select d').blank := by
  obtain ⟨hplan, rfl, rfl⟩ := prepared h
  obtain ⟨hplan', hspec, rfl⟩ := prepared h'
  have htable : plan.table = plan'.table :=
    ok_unique hplan.table (hspec ▸ hplan'.table)
  have hpredicate := Predicate.blank_compile_eq hfilters hplan.predicate (htable ▸ hplan'.predicate)
  refine ⟨htable, fun d d' => ?_⟩
  simp only [select, Select.blank, List.map_cons, htable, hspec,
    Predicate.blank_conditions_eq hpredicate, TableSchema.blank_dateCondition _ _ _ d d']

/-! ## §3 Histories and maturity profiles -/

/-- A specification of a history with a fixed first date, if it has one. -/
def HistorySpec.blank (spec : HistorySpec) : HistorySpec :=
  { spec with start := spec.start.map fun _ => .epoch }

theorem HistoryPlan.blank_select_eq (hfilters : filters.map Filter.blank = filters'.map Filter.blank)
    {spec spec' : HistorySpec} (hspecs : spec.blank = spec'.blank) {plan plan' : HistoryPlan}
    (h : prepare tables spec filters = .ok plan) (h' : prepare tables spec' filters' = .ok plan') :
    plan.table = plan'.table ∧ ∀ d d', (plan.select d).blank = (plan'.select d').blank := by
  obtain ⟨hplan, rfl, rfl⟩ := prepared h
  obtain ⟨hplan', rfl, rfl⟩ := prepared h'
  simp only [HistorySpec.blank, HistorySpec.mk.injEq] at hspecs
  obtain ⟨hname, hmeasure, hgroup, hstart, _⟩ := hspecs
  have htable : plan.table = plan'.table :=
    ok_unique hplan.table (hname ▸ hplan'.table)
  have hpredicate := Predicate.blank_compile_eq hfilters hplan.predicate (htable ▸ hplan'.predicate)
  refine ⟨htable, fun d d' => ?_⟩
  simp only [select, Select.blank, List.map_cons, List.map_append, htable, hmeasure, hgroup,
    Predicate.blank_conditions_eq hpredicate, TableSchema.blank_dateCondition _ _ _ d d',
    TableSchema.blank_dateConditions _ _ _ hstart, List.cons_append]

theorem MaturityPlan.blank_select_eq (hfilters : filters.map Filter.blank = filters'.map Filter.blank)
    {spec : MaturitySpec} {plan plan' : MaturityPlan}
    (h : prepare tables spec filters = .ok plan) (h' : prepare tables spec filters' = .ok plan') :
    plan.table = plan'.table ∧ ∀ d d', (plan.select d).blank = (plan'.select d').blank := by
  obtain ⟨hplan, rfl, rfl⟩ := prepared h
  obtain ⟨hplan', hspec, rfl⟩ := prepared h'
  have htable : plan.table = plan'.table :=
    ok_unique hplan.table (hspec ▸ hplan'.table)
  -- The column of maturity dates is that of the request, or else that of the table.
  have hmaturity : plan.maturity = plan'.maturity :=
    ok_unique hplan.maturity (htable ▸ hspec ▸ hplan'.maturity)
  have hpredicate := Predicate.blank_compile_eq hfilters hplan.predicate (htable ▸ hplan'.predicate)
  refine ⟨htable, fun d d' => ?_⟩
  simp only [select, Select.blank, List.map_cons, htable, hspec, hmaturity,
    Predicate.blank_conditions_eq hpredicate, TableSchema.blank_dateCondition _ _ _ d d',
    Fragment.blank_comparison, Parameter.blank]

/-! ## §4 Listings -/

theorem RowsPlan.blank_select_eq {r r' : RowsRequest}
    (hfilters : r.filters.map Filter.blank = r'.filters.map Filter.blank)
    (htables : r.table = r'.table) (hcolumns : r.columns = r'.columns)
    (horder : r.orderBy = r'.orderBy) (hdescending : r.descending = r'.descending)
    (hlimit : r.limit = r'.limit) (hoffset : r.offset = r'.offset) {plan plan' : RowsPlan}
    (h : prepare tables r = .ok plan) (h' : prepare tables r' = .ok plan') :
    plan.table = plan'.table ∧ ∀ d d', (plan.select d).blank = (plan'.select d').blank := by
  obtain ⟨hplan, rfl⟩ := prepared h
  obtain ⟨hplan', rfl⟩ := prepared h'
  have htable : plan.table = plan'.table :=
    ok_unique hplan.table (htables ▸ hplan'.table)
  -- Without columns the request is for those of its table.
  have hshown : plan.columns = plan'.columns := by
    rw [hplan.columns, hplan'.columns, htable, hcolumns]
  have hcapped : plan.limit = plan'.limit := ok_unique hplan.limit (hlimit ▸ hplan'.limit)
  have hpredicate := Predicate.blank_compile_eq hfilters hplan.predicate (htable ▸ hplan'.predicate)
  refine ⟨htable, fun d d' => ?_⟩
  simp only [select, Select.blank, List.map_cons, htable, hshown, hcapped, horder, hdescending,
    hoffset, Predicate.blank_conditions_eq hpredicate, TableSchema.blank_dateCondition _ _ _ d d']

theorem DistinctPlan.blank_select_eq {r r' : DistinctRequest}
    (hfilters : r.filters.map Filter.blank = r'.filters.map Filter.blank)
    (htables : r.table = r'.table) (hfield : r.field = r'.field) (hlimit : r.limit = r'.limit)
    {plan plan' : DistinctPlan} (h : prepare tables r = .ok plan)
    (h' : prepare tables r' = .ok plan') :
    plan.table = plan'.table ∧ ∀ d d', (plan.select d).blank = (plan'.select d').blank := by
  obtain ⟨hplan, rfl⟩ := prepared h
  obtain ⟨hplan', rfl⟩ := prepared h'
  have htable : plan.table = plan'.table :=
    ok_unique hplan.table (htables ▸ hplan'.table)
  have hcapped : plan.limit = plan'.limit := ok_unique hplan.limit (hlimit ▸ hplan'.limit)
  have hpredicate := Predicate.blank_compile_eq hfilters hplan.predicate (htable ▸ hplan'.predicate)
  refine ⟨htable, fun d d' => ?_⟩
  simp only [select, Select.blank, List.map_cons, htable, hfield, hcapped,
    Predicate.blank_conditions_eq hpredicate, TableSchema.blank_dateCondition _ _ _ d d']

/-! ## §5 Resolutions -/

/-- The statement that looks for a snapshot shows no day. -/
theorem Resolution.blank_select (t : TableSchema) (direction : Direction) (d d' : Date) :
    (select t direction d).blank = (select t direction d').blank :=
  rfl

end SnapshotAnalytics

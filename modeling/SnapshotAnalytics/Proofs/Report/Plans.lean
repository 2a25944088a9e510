import SnapshotAnalytics.Proofs.Data.Checks
import SnapshotAnalytics.Report.Breakdown
import SnapshotAnalytics.Report.History
import SnapshotAnalytics.Report.Listing
import SnapshotAnalytics.Report.Maturity
import SnapshotAnalytics.Report.StatCard

/-!
# Checked plans

What is known of a plan that was prepared: where its parts come from and which checks they passed.
Everything about statements and keys of plans starts from here.
-/

namespace SnapshotAnalytics

open Checks

variable {tables : TableRegistry} {filters : List Filter}

/-! ## §1 Measures -/

/-- The fields of a checked measure are declared, and a weighted average has weights. -/
theorem Measure.declared {m : Measure} {t : TableSchema} (h : m.check t = .ok ()) :
    t.require m.field = .ok () ∧
      (m.aggregation = .weightedAvg →
        ∃ weight, m.weight = some weight ∧ t.require weight = .ok ()) := by
  simp only [check, bind_eq_ok] at h
  obtain ⟨_, hfield, h⟩ := h
  refine ⟨hfield, fun hweighted => ?_⟩
  rw [if_pos hweighted] at h
  split at h
  · rename_i weight hweight
    exact ⟨weight, hweight, h⟩
  · cases h

/-! ## §2 Breakdowns -/

/-- The checks that the measures of a breakdown have passed. -/
structure BreakdownSpec.Checked (spec : BreakdownSpec) (t : TableSchema) : Prop where
  few : spec.results.length ≤ maxResults
  measure : spec.measure.check t = .ok ()
  results : ∀ m ∈ spec.results, m.check t = .ok ()

theorem BreakdownSpec.checked {spec : BreakdownSpec} {t : TableSchema}
    (h : spec.check t = .ok ()) : spec.Checked t := by
  simp only [check, bind_eq_ok, refuse_eq_ok] at h
  obtain ⟨hfew, _, hmeasure, _, hresults, _⟩ := h
  exact ⟨Nat.le_of_not_lt hfew, hmeasure, forM_eq_ok.mp hresults⟩

namespace BreakdownPlan

/-- The checks that a plan has passed. -/
structure Prepared (tables : TableRegistry) (plan : BreakdownPlan) : Prop where
  table : tables.table plan.spec.table = .ok plan.table
  checked : plan.spec.check plan.table = .ok ()
  declared : plan.table.require plan.groupBy = .ok ()
  predicate : Predicate.compile plan.table plan.filters = .ok plan.predicate

theorem prepared {spec : BreakdownSpec} {groupBy : String} {plan : BreakdownPlan}
    (h : prepare tables spec groupBy filters = .ok plan) :
    plan.Prepared tables ∧ plan.spec = spec ∧ plan.groupBy = groupBy ∧ plan.filters = filters := by
  simp only [prepare, bind_eq_ok, pure_eq_ok] at h
  obtain ⟨table, htable, _, hcheck, _, hgroup, predicate, hpredicate, rfl⟩ := h
  exact ⟨⟨htable, hcheck, hgroup, hpredicate⟩, rfl, rfl, rfl⟩

end BreakdownPlan

/-! ## §3 Stat cards -/

namespace StatCardPlan

/-- The checks that a plan has passed. -/
structure Prepared (tables : TableRegistry) (plan : StatCardPlan) : Prop where
  table : tables.table plan.spec.table = .ok plan.table
  nonempty : plan.spec.measures.isEmpty = false
  checked : ∀ m ∈ plan.spec.measures, m.measure.check plan.table = .ok ()
  predicate : Predicate.compile plan.table plan.filters = .ok plan.predicate

theorem prepared {spec : StatCardSpec} {plan : StatCardPlan}
    (h : prepare tables spec filters = .ok plan) :
    plan.Prepared tables ∧ plan.spec = spec ∧ plan.filters = filters := by
  simp only [prepare, bind_eq_ok, refuse_eq_ok, pure_eq_ok] at h
  obtain ⟨table, htable, hempty, _, hcheck, predicate, hpredicate, rfl⟩ := h
  have hnonempty : spec.measures.isEmpty = false := Bool.eq_false_iff.mpr hempty
  exact ⟨⟨htable, hnonempty, forM_eq_ok.mp hcheck, hpredicate⟩, rfl, rfl⟩

end StatCardPlan

/-! ## §4 Histories -/

namespace HistoryPlan

/-- The checks that a plan has passed. -/
structure Prepared (tables : TableRegistry) (plan : HistoryPlan) : Prop where
  table : tables.table plan.spec.table = .ok plan.table
  checked : plan.spec.measure.check plan.table = .ok ()
  declared : ∀ field ∈ plan.spec.groupBy, plan.table.require field = .ok ()
  limit : ∀ n ∈ plan.spec.limit, 2 ≤ n
  predicate : Predicate.compile plan.table plan.filters = .ok plan.predicate

theorem prepared {spec : HistorySpec} {plan : HistoryPlan}
    (h : prepare tables spec filters = .ok plan) :
    plan.Prepared tables ∧ plan.spec = spec ∧ plan.filters = filters := by
  simp only [prepare, bind_eq_ok] at h
  obtain ⟨table, htable, _, hcheck, _, hgroup, h⟩ := h
  have hdeclared := optionForM_eq_ok.mp hgroup
  -- The check of the limit stands before the filters are compiled, so the cases share the rest.
  split at h
  · rename_i limit hlimit
    simp only [refuse_eq_ok, bind_eq_ok, pure_eq_ok] at h
    obtain ⟨hlong, predicate, hpredicate, rfl⟩ := h
    refine ⟨⟨htable, hcheck, hdeclared, ?_, hpredicate⟩, rfl, rfl⟩
    intro n hn
    rw [hlimit] at hn
    cases hn
    exact Nat.le_of_not_lt hlong
  · rename_i hlimit
    simp only [bind_eq_ok, pure_eq_ok] at h
    obtain ⟨predicate, hpredicate, rfl⟩ := h
    refine ⟨⟨htable, hcheck, hdeclared, ?_, hpredicate⟩, rfl, rfl⟩
    intro n hn
    rw [hlimit] at hn
    cases hn

end HistoryPlan

/-! ## §5 Maturity profiles -/

namespace MaturityPlan

/-- The checks that a plan has passed. -/
structure Prepared (tables : TableRegistry) (plan : MaturityPlan) : Prop where
  table : tables.table plan.spec.table = .ok plan.table
  checked : plan.spec.measure.check plan.table = .ok ()
  maturity : maturityOf plan.table plan.spec = .ok plan.maturity
  date : plan.table.kindOf plan.maturity = .ok .date
  declared : ∀ field ∈ plan.spec.groupBy, plan.table.require field = .ok ()
  predicate : Predicate.compile plan.table plan.filters = .ok plan.predicate

theorem prepared {spec : MaturitySpec} {plan : MaturityPlan}
    (h : prepare tables spec filters = .ok plan) :
    plan.Prepared tables ∧ plan.spec = spec ∧ plan.filters = filters := by
  simp only [prepare, bind_eq_ok, refuse_eq_ok, pure_eq_ok] at h
  obtain ⟨table, htable, _, hcheck, maturity, hmaturity, kind, hkind, hdate, _, hgroup, predicate,
    hpredicate, rfl⟩ := h
  have hisDate : kind = .date := Decidable.not_not.mp hdate
  subst hisDate
  exact ⟨⟨htable, hcheck, hmaturity, hkind, optionForM_eq_ok.mp hgroup, hpredicate⟩, rfl, rfl⟩

end MaturityPlan

/-! ## §6 Listings -/

namespace RowsPlan

/-- The checks that a plan has passed. -/
structure Prepared (tables : TableRegistry) (plan : RowsPlan) : Prop where
  table : tables.table plan.request.table = .ok plan.table
  declared : ∀ column ∈ plan.request.columns, plan.table.require column = .ok ()
  columns : plan.columns =
    if plan.request.columns.isEmpty then plan.table.fields.map (·.1) else plan.request.columns
  ordered : ∀ column ∈ plan.request.orderBy, plan.table.require column = .ok ()
  limit : Listing.capped plan.request.limit = .ok plan.limit
  predicate : Predicate.compile plan.table plan.request.filters = .ok plan.predicate

theorem prepared {r : RowsRequest} {plan : RowsPlan} (h : prepare tables r = .ok plan) :
    plan.Prepared tables ∧ plan.request = r := by
  simp only [prepare, bind_eq_ok, pure_eq_ok] at h
  obtain ⟨table, htable, _, hcolumns, _, horder, limit, hlimit, predicate, hpredicate, rfl⟩ := h
  exact ⟨⟨htable, forM_eq_ok.mp hcolumns, rfl, optionForM_eq_ok.mp horder, hlimit, hpredicate⟩, rfl⟩

end RowsPlan

namespace DistinctPlan

/-- The checks that a plan has passed. -/
structure Prepared (tables : TableRegistry) (plan : DistinctPlan) : Prop where
  table : tables.table plan.request.table = .ok plan.table
  declared : plan.table.require plan.request.field = .ok ()
  limit : Listing.capped plan.request.limit = .ok plan.limit
  predicate : Predicate.compile plan.table plan.request.filters = .ok plan.predicate

theorem prepared {r : DistinctRequest} {plan : DistinctPlan} (h : prepare tables r = .ok plan) :
    plan.Prepared tables ∧ plan.request = r := by
  simp only [prepare, bind_eq_ok, pure_eq_ok] at h
  obtain ⟨table, htable, _, hfield, limit, hlimit, predicate, hpredicate, rfl⟩ := h
  exact ⟨⟨htable, hfield, hlimit, hpredicate⟩, rfl⟩

end DistinctPlan

end SnapshotAnalytics

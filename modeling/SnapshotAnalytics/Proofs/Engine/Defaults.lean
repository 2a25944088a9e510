import SnapshotAnalytics.Proofs.Engine.RequestTexts
import SnapshotAnalytics.Proofs.Engine.StatementForms
import SnapshotAnalytics.Proofs.Filter.OrderBounds
import SnapshotAnalytics.Proofs.Measure.Weights
import SnapshotAnalytics.Proofs.Report.ResultSlots

/-!
# Defaults that are never used

Several functions have a value for a case that the checks of a request rule out: the measured field for
a missing weight, equality for an operator without a symbol, zero for a result slot that is not there.
Taken by mistake, such a value would give wrong figures and no error. For a request that passes every
check none of them is ever taken, and the last place of a history is never taken from no places.
-/

namespace SnapshotAnalytics

namespace Request

/-- The measures of a request. -/
def measures : Request → List Measure
  | breakdown r => r.spec.measure :: r.spec.results
  | statCard r => r.spec.measures.map (·.measure)
  | history r => [r.spec.measure]
  | maturity r => [r.spec.measure]
  | rows _ | distinct _ => []

/-- The statement of a request selects its measures, all of which are checked, and its conditions are
made from its filters. -/
structure StatedWith (r : Request) (t : TableSchema) (select : Date → Select)
    (predicate : Predicate) : Prop where
  checked : ∀ m ∈ r.measures, m.check t = .ok ()
  selected : ∀ m ∈ r.measures, ∀ d, m.sql ∈ (select d).columns.map (·.expression)
  compiled : Predicate.compile t r.filters = .ok predicate
  conditions : ∀ d, predicate.conditions ⊆ (select d).conditions

variable {tables : TableRegistry} {r : Request} {t : TableSchema} {select : Date → Select}

/-- The expressions that are selected for items one by one, whatever they are called. -/
theorem map_expression_mapIdx {α : Type} (sql : α → String) (name : Nat → String) (items : List α) :
    (items.mapIdx fun i x => (⟨sql x, some (name i)⟩ : Selected)).map (·.expression) =
      items.map sql := by
  apply List.ext_getElem?
  intro i
  simp only [List.getElem?_map, List.getElem?_mapIdx, Option.map_map]
  rfl

theorem States.exists_statedWith (h : r.States tables t select) :
    ∃ predicate, r.StatedWith t select predicate := by
  -- For each kind the checks of its plan say which measures and which filters stand in its
  -- statement.
  cases h with
  | @breakdown r plan h =>
    obtain ⟨hplan, hspec, -, hfilters⟩ := BreakdownPlan.prepared h
    have hcompiled : Predicate.compile plan.table r.filters = .ok plan.predicate :=
      hfilters ▸ hplan.predicate
    have hchecked := BreakdownSpec.checked hplan.checked
    refine ⟨plan.predicate, ?_, fun m hm d => ?_, hcompiled,
      fun d => List.subset_cons_self ..⟩
    · rw [measures, ← hspec]
      exact List.forall_mem_cons.mpr ⟨hchecked.measure, hchecked.results⟩
    · have hcolumns : (plan.select d).columns.map (·.expression) =
          plan.groupBy :: plan.spec.measure.sql :: plan.spec.results.map Measure.sql := by
        rw [BreakdownPlan.select, List.map_cons, List.map_cons, map_expression_mapIdx]
      rw [measures, ← hspec] at hm
      rw [hcolumns]
      exact List.mem_cons_of_mem _ (List.mem_map_of_mem hm)
  | @statCard r plan h =>
    obtain ⟨hplan, hspec, hfilters⟩ := StatCardPlan.prepared h
    have hcompiled : Predicate.compile plan.table r.filters = .ok plan.predicate :=
      hfilters ▸ hplan.predicate
    refine ⟨plan.predicate, ?_, fun m hm d => ?_, hcompiled,
      fun d => List.subset_cons_self ..⟩
    · rw [measures, ← hspec]
      exact List.forall_mem_map.mpr hplan.checked
    · have hcolumns : (plan.select d).columns.map (·.expression) =
          plan.spec.measures.map (·.measure.sql) := by
        rw [StatCardPlan.select, map_expression_mapIdx]
      rw [measures, ← hspec] at hm
      obtain ⟨named, hnamed, rfl⟩ := List.mem_map.mp hm
      rw [hcolumns]
      exact List.mem_map_of_mem hnamed
  | @history r plan h =>
    obtain ⟨hplan, hspec, hfilters⟩ := HistoryPlan.prepared h
    have hcompiled : Predicate.compile plan.table r.filters = .ok plan.predicate :=
      hfilters ▸ hplan.predicate
    refine ⟨plan.predicate, ?_, fun m hm d => ?_, hcompiled, fun d => ?_⟩
    · rw [measures, ← hspec]
      exact List.forall_mem_singleton.mpr hplan.checked
    · rw [measures, ← hspec, List.mem_singleton] at hm
      simp [hm, HistoryPlan.select]
    · rw [HistoryPlan.select]
      exact List.subset_append_right _ _
  | @maturity r plan h =>
    obtain ⟨hplan, hspec, hfilters⟩ := MaturityPlan.prepared h
    have hcompiled : Predicate.compile plan.table r.filters = .ok plan.predicate :=
      hfilters ▸ hplan.predicate
    refine ⟨plan.predicate, ?_, fun m hm d => ?_, hcompiled, fun d => ?_⟩
    · rw [measures, ← hspec]
      exact List.forall_mem_singleton.mpr hplan.checked
    · rw [measures, ← hspec, List.mem_singleton] at hm
      simp [hm, MaturityPlan.select]
    · rw [MaturityPlan.select]
      exact List.subset_append_right [_, _] _
  | @rows r plan h =>
    obtain ⟨hplan, hrequest⟩ := RowsPlan.prepared h
    have hcompiled : Predicate.compile plan.table r.filters = .ok plan.predicate :=
      hrequest ▸ hplan.predicate
    -- Listings have no measures.
    exact ⟨plan.predicate, List.forall_mem_nil _, List.forall_mem_nil _, hcompiled,
      fun d => List.subset_cons_self ..⟩
  | @distinct r plan h =>
    obtain ⟨hplan, hrequest⟩ := DistinctPlan.prepared h
    have hcompiled : Predicate.compile plan.table r.filters = .ok plan.predicate :=
      hrequest ▸ hplan.predicate
    exact ⟨plan.predicate, List.forall_mem_nil _, List.forall_mem_nil _, hcompiled,
      fun d => List.subset_cons_self ..⟩

end Request

/-! ## §2 The last place of a history -/

namespace HistorySeries

variable {α : Type} [Amount α]

/-- With a place for all other groups among those that were asked for, no more labels are shown. -/
theorem length_groups_le {spec : HistorySpec} {limit : Nat} (hlimit : spec.limit = some limit)
    (hpos : 1 ≤ limit) (snapshots : List (Date × List (GroupValues α))) :
    (ofSnapshots spec snapshots).groups.length ≤ limit := by
  unfold ofSnapshots
  split
  · exact Nat.zero_le _
  · rw [grouped, hlimit]
    -- Only the first case takes a place away, and there is one since the limit is positive.
    by_cases hmany : limit < (ranking snapshots).length
    · rw [show shown (some limit) (ranking snapshots) = (_, true) from if_pos hmany]
      simp only [List.length_append, List.length_take, if_true, List.length_singleton]
      omega
    · rw [show shown (some limit) (ranking snapshots) = (_, false) from if_neg hmany]
      simp only [Bool.false_eq_true, if_false, List.append_nil]
      omega

end HistorySeries

/-! ## §3 Accepted requests -/

namespace TableRegistry

/-- **No default is taken** for a request that passes every check, whatever is fetched for it. Each of
its weighted averages is selected with the weights that were asked for, and never with the measured
field in their place. Each of its filters by order that has values is compiled to a comparison with the
first of them, by a symbol of its own, and filters without values are left out. No result slot of a
breakdown is missing anywhere. And the place that a history keeps for all other groups is one of at
least two, so the series never has more places than were asked for. -/
theorem noDefaults_of_accepted (tables : TableRegistry) :
    (∀ (r : Request) (t : TableSchema) (select : Date → Select), r.States tables t select →
      (∀ m ∈ r.measures, m.RendersWeight t ∧ ∀ d, m.sql ∈ (select d).columns.map (·.expression)) ∧
      ∃ predicate : Predicate, Predicate.compile t r.filters = .ok predicate ∧
        (∀ d, predicate.conditions ⊆ (select d).conditions) ∧
        predicate.length = r.filters.countP (fun f => !f.values.isEmpty) ∧
        ∀ (place : Nat) (f : Filter), r.filters[place]? = some f → f.values ≠ [] →
          f.operator ∈ Operator.ordering → f.IsBoundIn predicate t place) ∧
    (∀ spec groupBy filters plan, BreakdownPlan.prepare tables spec groupBy filters = .ok plan →
      plan.spec = spec ∧ ∀ now before, plan.HasAllSlots now before) ∧
    (∀ spec filters plan, HistoryPlan.prepare tables spec filters = .ok plan →
      ∀ limit ∈ spec.limit, 1 ≤ limit - 1 ∧ limit - 1 + 1 = limit ∧ ∀ answer : QueryResult,
        (HistorySeries.ofSnapshots plan.spec (answer.groupsByDate "snapshot")).groups.length ≤
          limit) := by
  refine ⟨fun r t select h => ?_, fun spec groupBy filters plan h => ?_, fun spec filters plan h => ?_⟩
  · -- The filters are compiled from the first place on.
    obtain ⟨predicate, hstated⟩ := h.exists_statedWith
    obtain ⟨hlength, hbound⟩ := Predicate.isBoundIn_of_compileFrom hstated.compiled
    refine ⟨fun m hm => ⟨Measure.rendersWeight (hstated.checked m hm), hstated.selected m hm⟩,
      predicate, hstated.compiled, hstated.conditions, hlength, fun place f hf hne hordering => ?_⟩
    have hplace := hbound place f hf hne hordering
    rwa [Nat.zero_add] at hplace
  · obtain ⟨hplan, hspec, -, -⟩ := BreakdownPlan.prepared h
    exact ⟨hspec, hplan.hasAllSlots⟩
  · obtain ⟨hplan, rfl, -⟩ := HistoryPlan.prepared h
    intro limit hlimit
    have hlong : 2 ≤ limit := hplan.limit limit hlimit
    exact ⟨by omega, by omega, fun answer =>
      HistorySeries.length_groups_le hlimit (by omega) (answer.groupsByDate "snapshot")⟩

/-! Prices that are weighted by sizes, of large trades, by the sizes themselves; and the history of the
sizes of the largest desk beside all others. -/

def prices : TableSchema :=
  (((TableSchema.ofDateColumn "prices" "day" .calendar).withField "desk" .text).withField
    "price" .number).withField "size" .number

def largeTrades : Filter :=
  ⟨"size", .greaterThan, [" 1e2 ", "none"]⟩

def pricesRequest : BreakdownRequest :=
  ⟨⟨"prices", .weightedAvg "price" "size", [.sum "size"], .result1, .descending, 12⟩, "desk",
    [⟨"desk", .lessThan, []⟩, largeTrades], ⟨none, none, none⟩⟩

def pricesPlan : BreakdownPlan :=
  ⟨prices, pricesRequest.spec, "desk", [.comparison "size" ">" ⟨"p1_0", .float, "100"⟩],
    pricesRequest.filters⟩

def sizesSpec : HistorySpec :=
  ⟨"prices", .sum "size", some "desk", none, some 2⟩

theorem noDefaults_of_accepted_prices :
    (∀ d, "ifNull(sum(toFloat64OrZero(toString(price)) * toFloat64OrZero(toString(size))) / " ++
        "nullIf(sum(toFloat64OrZero(toString(size))), 0), 0)" ∈
          (pricesPlan.select d).columns.map (·.expression)) ∧
      largeTrades.IsBoundIn pricesPlan.predicate prices 1 ∧
      (∀ now before, pricesPlan.HasAllSlots now before) ∧
      ∀ answer : QueryResult, (HistorySeries.ofSnapshots sizesSpec
        (answer.groupsByDate "snapshot")).groups.length ≤ 2 := by
  obtain ⟨hrequests, hbreakdowns, hhistories⟩ := noDefaults_of_accepted [("prices", prices)]
  have hplan : BreakdownPlan.prepare [("prices", prices)] pricesRequest.spec pricesRequest.groupBy
      pricesRequest.filters = .ok pricesPlan := by
    have hcompiled : Predicate.compile prices pricesRequest.filters = .ok pricesPlan.predicate := by
      decide +kernel
    show (Predicate.compile prices pricesRequest.filters >>= fun predicate => Except.ok
      (BreakdownPlan.mk prices pricesRequest.spec "desk" predicate pricesRequest.filters)) = _
    rw [hcompiled]
    rfl
  have hhistory : HistoryPlan.prepare [("prices", prices)] sizesSpec [] =
      .ok ⟨prices, sizesSpec, [], []⟩ := rfl
  obtain ⟨hweights, predicate, hpredicate, -, -, hbound⟩ := hrequests _ _ _ (.breakdown hplan)
  -- The predicate of the theorem is the one of the plan, as filters are compiled in one way.
  obtain rfl : predicate = pricesPlan.predicate :=
    Checks.ok_unique hpredicate (BreakdownPlan.prepared hplan).1.predicate
  refine ⟨(hweights _ List.mem_cons_self).2, ?_, (hbreakdowns _ _ _ _ hplan).2, ?_⟩
  · exact hbound 1 largeTrades rfl (List.cons_ne_nil _ _) (by decide)
  · exact (hhistories _ _ _ hhistory 2 rfl).2.2

end TableRegistry

end SnapshotAnalytics

import SnapshotAnalytics.Proofs.Report.Accounting
import SnapshotAnalytics.Proofs.Report.AlignedSeries

/-!
# Profiles of maturities

The profile of all groups has a point for every month that was read, made of the rows of the month. In
the profiles of the groups every row has a point of its own, under its label. Rows come in by month and
are collected by label in a map; in which order the map lists the labels makes no difference, since the
groups are sorted by a total order afterwards.
-/

namespace SnapshotAnalytics

variable {α : Type} [Amount α]

/-! ## §1 Running sums -/

/-- The sum up to each point is taken from left to right, and what remains is the sum of all points
without it. -/
def MaturityPoint.Cumulates (points : List (MaturityPoint α)) : Prop :=
  ∀ before p after, points = before ++ p :: after →
    p.cumulative = ((before ++ [p]).map (·.amount)).foldl Amount.add Amount.zero ∧
      p.remaining = Amount.sub (Amount.sum (points.map (·.amount))) p.cumulative

/-- What remains at each point is the sum of the later amounts. -/
def MaturityPoint.Settles (points : List (MaturityPoint ℚ)) : Prop :=
  ∀ before p after, points = before ++ p :: after → p.remaining = (after.map (·.amount)).sum

open MaturityPoint

namespace MaturitySeries

/-- Points keep their months and amounts. -/
theorem map_pointsFrom (total running : α) (months : List (Date × α)) :
    (pointsFrom total running months).map (fun p => (p.month, p.amount)) = months := by
  induction months generalizing running with
  | nil => rfl
  | cons month months ih => rw [pointsFrom, List.map_cons, ih]

theorem sums_pointsFrom (total : α) {months : List (Date × α)} {running : α}
    {before after : List (MaturityPoint α)} {p : MaturityPoint α}
    (h : pointsFrom total running months = before ++ p :: after) :
    p.cumulative = ((before ++ [p]).map (·.amount)).foldl Amount.add running ∧
      p.remaining = Amount.sub total p.cumulative := by
  -- The induction is on the months; the running sum is the one up to the first of them.
  induction months generalizing running before with
  | nil => exact absurd h (by simp [pointsFrom])
  | cons month months ih =>
    rw [pointsFrom] at h
    cases before with
    | nil =>
      obtain ⟨rfl, _⟩ := List.cons.inj h
      exact ⟨rfl, rfl⟩
    | cons first before =>
      -- Behind the first point the running sum is the one up to it.
      obtain ⟨rfl, hbehind⟩ := List.cons.inj h
      have hsums := ih hbehind
      exact hsums

theorem map_cumulate (months : List (Date × α)) :
    (cumulate months).map (fun p => (p.month, p.amount)) = months :=
  map_pointsFrom _ _ months

theorem map_amount_cumulate (months : List (Date × α)) :
    (cumulate months).map (·.amount) = months.map (·.2) := by
  conv_rhs => rw [← map_cumulate months, List.map_map]
  rfl

theorem map_month_cumulate (months : List (Date × α)) :
    (cumulate months).map (·.month) = months.map (·.1) := by
  conv_rhs => rw [← map_cumulate months, List.map_map]
  rfl

theorem cumulates_cumulate (months : List (Date × α)) : Cumulates (cumulate months) := by
  intro before p after h
  rw [map_amount_cumulate]
  exact sums_pointsFrom (sumOf months) h

/-- Without rounding, the sum up to a point and the later amounts are the whole sum. -/
theorem settles_of_cumulates {points : List (MaturityPoint ℚ)} (h : Cumulates points) :
    Settles points := by
  intro before p after hpoints
  obtain ⟨hcumulative, hremaining⟩ := h before p after hpoints
  -- The whole sum is the sum up to the point and the sum behind it.
  have hwhole : Amount.sum (points.map (·.amount)) = p.cumulative + (after.map (·.amount)).sum := by
    rw [hcumulative, Amount.sum_exact, Amount.foldl_add_exact, hpoints, List.append_cons,
      List.map_append, List.sum_append]
    exact congrArg (· + _) (zero_add _).symm
  rw [hremaining, hwhole]
  exact add_sub_cancel_left _ _

/-! ## §2 All groups together -/

variable {readings : List (Date × GroupValues α)}

/-- A profile of all groups: one point for every month that was read, in ascending order, whose amount
is the combination of the rows of the month. -/
structure Totals (points : List (MaturityPoint α)) (readings : List (Date × GroupValues α))
    (a : Aggregation) : Prop where
  ascending : points.Pairwise fun p q => p.month < q.month
  months : ∀ d, (∃ p ∈ points, p.month = d) ↔ ∃ x ∈ readings, x.1 = d
  amount : ∀ p ∈ points,
    p.amount = a.combineAll ((Keyed.valuesUnder p.month readings).map (·.value))
  cumulates : Cumulates points

theorem totals_cumulate (a : Aggregation) (readings : List (Date × GroupValues α)) :
    Totals (cumulate (monthly a (Keyed.gather readings))) readings a := by
  -- The points have the keys under which rows were gathered, in their order.
  have hmonths : (cumulate (monthly a (Keyed.gather readings))).map (·.month) =
      (Keyed.gather readings).map (·.1) := by
    rw [map_month_cumulate, monthly, List.map_map]
    rfl
  refine ⟨?_, ?_, ?_, cumulates_cumulate _⟩
  · rw [← List.pairwise_map (f := MaturityPoint.month) (R := (· < ·)), hmonths, List.pairwise_map]
    exact (Keyed.Ascending.gather readings).imp Date.compare_eq_lt.mp
  · intro d
    have hkeys : d ∈ (Keyed.gather readings).map (·.1) ↔ d ∈ readings.map (·.1) :=
      Keyed.mem_keys_gather
    rw [← hmonths] at hkeys
    simpa only [List.mem_map] using hkeys
  · intro p hp
    have hmem : (p.month, p.amount) ∈ monthly a (Keyed.gather readings) := by
      rw [← map_cumulate (monthly a (Keyed.gather readings))]
      exact List.mem_map_of_mem (f := fun p : MaturityPoint α => (p.month, p.amount)) hp
    obtain ⟨⟨d, rows⟩, hrows, hsame⟩ := List.mem_map.mp hmem
    obtain ⟨rfl, hamount⟩ := Prod.mk.inj hsame
    obtain ⟨_, rfl⟩ := Keyed.mem_gather.mp hrows
    rw [← hamount]
    exact MergeRule.value_merge ⟨a, []⟩ "total" _

/-! ## §3 The profiles of the groups -/

/-- The sum of the amounts of a group. -/
def sumOfGroup (g : MaturityGroup α) : α :=
  Amount.sum (g.points.map (·.amount))

/-- Profiles of groups: one for every label that was read, each with a point for every row of its label,
in the order of months; the largest sums first, and by label among equals. -/
structure Profiles (groups : List (MaturityGroup α)) (readings : List (Date × GroupValues α)) :
    Prop where
  nodup : (groups.map (·.group)).Nodup
  labels : ∀ label, (∃ g ∈ groups, g.group = label) ↔ ∃ x ∈ readings, x.2.group = label
  points : ∀ g ∈ groups, (g.points.map fun p => (p.month, p.amount)).Perm
    ((readings.filter fun x => x.2.group = g.group).map fun x => (x.1, x.2.value))
  months : ∀ g ∈ groups, g.points.Pairwise fun p q => p.month ≤ q.month
  ranked : groups.Pairwise fun g h =>
    (Amount.rank (sumOfGroup h) (sumOfGroup g)).then (compare g.group h.group) = .lt
  cumulates : ∀ g ∈ groups, Cumulates g.points

/-- The amounts of all rows under their labels, month by month. -/
def labelled (months : List (Date × List (GroupValues α))) : List (String × (Date × α)) :=
  months.flatMap fun (month, groups) => groups.map fun g => (g.group, (month, g.value))

/-- The profiles of the groups that a map lists. -/
def profilesOf (buckets : List (String × List (Date × α))) : List (MaturityGroup α) :=
  (buckets.mergeSort fun x y => (bySum x y).isLE).map fun (group, months) =>
    ⟨group, cumulate months⟩

instance [Amount.Ranked α] :
    Std.TransCmp (bySum : String × List (Date × α) → String × List (Date × α) → Ordering) :=
  have upwards : Std.TransCmp fun x y : String × List (Date × α) =>
      Amount.rank (sumOf x.2) (sumOf y.2) :=
    Sorting.transCmp_on Amount.rank fun bucket : String × List (Date × α) => sumOf bucket.2
  have : Std.TransCmp fun x y : String × List (Date × α) => Amount.rank (sumOf y.2) (sumOf x.2) :=
    upwards.opposite
  inferInstanceAs (Std.TransCmp
    (compareLex (fun x y : String × List (Date × α) => Amount.rank (sumOf y.2) (sumOf x.2))
      (compareOn Prod.fst)))

/-- Groups with different labels are not equal in the order. -/
theorem bySum_ne_eq {buckets : List (String × List (Date × α))}
    (h : (buckets.map (·.1)).Nodup) : buckets.Pairwise fun x y => bySum x y ≠ .eq := by
  refine Sorting.pairwise_ne_eq bySum (fun x y heq => ?_) h
  have hlabel : compare x.1 y.1 = .eq := (Ordering.then_eq_eq.mp heq).2
  exact Std.LawfulEqOrd.eq_of_compare hlabel

/-- In whatever order a map lists the groups, their profiles are the same. -/
theorem profilesOf_eq [Amount.Ranked α] {months : List (Date × List (GroupValues α))}
    {buckets : List (String × List (Date × α))} (h : Keyed.Collects buckets (labelled months)) :
    profilesOf buckets = profiles months := by
  have hgather := Keyed.collects_gather (labelled months)
  rw [profilesOf, Sorting.mergeSort_eq_of_perm (h.perm hgather) (bySum_ne_eq hgather.nodup)]
  rfl

omit [Amount α] in
/-- Every row is there under its label, with its month and its value. -/
theorem labelled_perm (readings : List (Date × GroupValues α)) :
    (labelled (Keyed.gather readings)).Perm
      (readings.map fun x => (x.2.group, (x.1, x.2.value))) := by
  have hperm := (Keyed.perm_flatMap_gather readings).map fun x => (x.2.group, (x.1, x.2.value))
  rw [List.map_flatMap] at hperm
  simpa only [labelled, List.map_map, Function.comp_def] using hperm

omit [Amount α] in
/-- The rows come in by month. -/
theorem pairwise_labelled (readings : List (Date × GroupValues α)) :
    (labelled (Keyed.gather readings)).Pairwise fun x y => x.2.1 ≤ y.2.1 := by
  refine List.pairwise_flatMap.mpr ⟨?_, ?_⟩
  · rintro ⟨month, rows⟩ _
    -- All rows that were gathered together are of one month.
    refine List.pairwise_map.mpr (List.pairwise_of_forall fun _ _ => ?_)
    exact Date.le_refl month
  · refine (Keyed.Ascending.gather readings).imp fun {x y} hlt => ?_
    intro entry hentry entry' hentry'
    obtain ⟨_, _, rfl⟩ := List.mem_map.mp hentry
    obtain ⟨_, _, rfl⟩ := List.mem_map.mp hentry'
    exact Int.le_of_lt (Date.compare_eq_lt.mp hlt)

theorem mem_profiles {months : List (Date × List (GroupValues α))} {g : MaturityGroup α} :
    g ∈ profiles months ↔ ∃ label ∈ (labelled months).map (·.1),
      g = ⟨label, cumulate (Keyed.valuesUnder label (labelled months))⟩ := by
  rw [profiles, List.mem_map]
  constructor
  · rintro ⟨⟨label, amounts⟩, hmem, rfl⟩
    obtain ⟨hlabel, rfl⟩ := Keyed.mem_gather.mp (List.mem_mergeSort.mp hmem)
    exact ⟨label, hlabel, rfl⟩
  · rintro ⟨label, hlabel, rfl⟩
    exact ⟨_, List.mem_mergeSort.mpr (Keyed.mem_gather.mpr ⟨hlabel, rfl⟩), rfl⟩

theorem sumOfGroup_cumulate (label : String) (months : List (Date × α)) :
    sumOfGroup ⟨label, cumulate months⟩ = sumOf months := by
  rw [sumOfGroup, sumOf, map_amount_cumulate]

omit [Amount α] in
/-- The labels under which rows come in are those that were read. -/
theorem mem_keys_labelled {readings : List (Date × GroupValues α)} {label : String} :
    label ∈ (labelled (Keyed.gather readings)).map (·.1) ↔
      ∃ x ∈ readings, x.2.group = label := by
  rw [((labelled_perm readings).map _).mem_iff, List.map_map, List.mem_map]
  rfl

omit [Amount α] in
/-- What comes in under a label comes in by month. -/
theorem pairwise_valuesUnder (label : String) (readings : List (Date × GroupValues α)) :
    (Keyed.valuesUnder label (labelled (Keyed.gather readings))).Pairwise
      fun x y => x.1 ≤ y.1 := by
  rw [Keyed.valuesUnder, List.pairwise_map]
  exact (pairwise_labelled readings).filter _

/-- The profiles of the groups of readings. -/
theorem profiles_gather [Amount.Ranked α] (readings : List (Date × GroupValues α)) :
    Profiles (profiles (Keyed.gather readings)) readings := by
  have hnodup := Keyed.nodup_keys_gather (labelled (Keyed.gather readings))
  refine ⟨?_, ?_, ?_, ?_, ?_, ?_⟩
  · rw [profiles, List.map_map]
    exact ((List.mergeSort_perm _ _).map _).nodup_iff.mpr hnodup
  · intro label
    rw [← mem_keys_labelled]
    constructor
    · rintro ⟨g, hg, rfl⟩
      obtain ⟨label, hmem, rfl⟩ := mem_profiles.mp hg
      exact hmem
    · intro hmem
      exact ⟨_, mem_profiles.mpr ⟨label, hmem, rfl⟩, rfl⟩
  · intro g hg
    obtain ⟨label, _, rfl⟩ := mem_profiles.mp hg
    -- A profile holds what came in under its label, and all rows came in under theirs.
    have hunder := ((labelled_perm readings).filter fun x => x.1 = label).map (·.2)
    rw [List.filter_map, List.map_map] at hunder
    rw [map_cumulate]
    exact hunder
  · intro g hg
    obtain ⟨label, _, rfl⟩ := mem_profiles.mp hg
    have hmonths := List.pairwise_map.mpr (pairwise_valuesUnder label readings)
    rw [← map_month_cumulate] at hmonths
    exact List.pairwise_map.mp hmonths
  · -- Sums are those of the amounts that are shown.
    refine List.pairwise_map.mpr ((Sorting.pairwise_lt_mergeSort (bySum_ne_eq hnodup)).imp ?_)
    intro x y hlt
    rw [sumOfGroup_cumulate, sumOfGroup_cumulate]
    exact hlt
  · intro g hg
    obtain ⟨label, _, rfl⟩ := mem_profiles.mp hg
    exact cumulates_cumulate _

end MaturitySeries

/-! ## §4 Profiles of what is fetched -/

namespace Engine

open MaturitySeries

/-- **Profiles are complete and determined**: whatever is fetched for an accepted maturity profile. The
profile of all groups has a point for every month that was read; asked for by group, every row is a
point of the group of its label, in whatever order a map lists the groups; and without rounding, what
remains at a point of any profile is the sum of the later amounts. -/
theorem maturityAt_profiles (e : Engine) (s : Surroundings Id) {spec : MaturitySpec}
    {filters : List Filter} {plan : MaturityPlan}
    (hplan : MaturityPlan.prepare e.tables spec filters = .ok plan) (snapshot : Date)
    {st st' : CacheState} {r : QueryResult}
    (hfetch : (e.fetch s .figures (e.maturityFetch plan snapshot)).run.run st = (.ok r, st')) :
    let readings := r.readings "month"
    let exactSeries := ofMonths spec (Keyed.gather (exactReadings readings))
    ∃ series, (e.maturityAt s plan snapshot).run.run st = (.ok series, st') ∧
      Totals series.total readings spec.measure.aggregation ∧
      (spec.groupBy = none → series.groups = []) ∧
      (spec.groupBy.isSome = true → Profiles series.groups readings ∧
        ∀ buckets, Keyed.Collects buckets (labelled (Keyed.gather readings)) →
          profilesOf buckets = series.groups) ∧
      Settles exactSeries.total ∧ ∀ g ∈ exactSeries.groups, Settles g.points := by
  obtain ⟨_, rfl, _⟩ := MaturityPlan.prepared hplan
  intro readings exactSeries
  refine ⟨ofMonths plan.spec (Keyed.gather readings), ?_, ?_, ?_, ?_, ?_, ?_⟩
  · rw [maturityAt, CacheM.run_bind, hfetch]
    rfl
  · exact totals_cumulate _ readings
  · intro hnone
    rw [ofMonths, hnone]
    rfl
  · intro hsome
    rw [ofMonths, if_pos hsome]
    refine ⟨profiles_gather readings, fun buckets hbuckets => ?_⟩
    exact profilesOf_eq hbuckets
  · exact settles_of_cumulates (cumulates_cumulate _)
  · intro g hg
    simp only [exactSeries, ofMonths] at hg
    split at hg
    · -- The profiles that are made of exact readings are complete ones, and those settle.
      exact settles_of_cumulates ((profiles_gather (exactReadings readings)).cumulates g hg)
    · cases hg

/-! Settlements of two desks in two months: one desk has two rows in one month, the sums of both desks are
the same, and one record has no month. -/

/-- The sizes of trades by the month in which they are settled. -/
def settlements : MaturitySpec :=
  ⟨"trades", .sum "size", some "settles", some "desk"⟩

def settlementPlan : MaturityPlan :=
  ⟨trades, settlements, "settles", [], []⟩

def settlementRecords : QueryResult :=
  .ofRows [⟨"month", .string, true⟩, ⟨"group_key", .string, false⟩, ⟨"value", .natural, false⟩]
    [[.text "2024-04-01", .text "FX", .ofNat 5], [.text "2024-03-01", .text "FX", .ofNat 2],
      [.text "2024-03-01", .text "EQ", .ofNat 3], [.null, .text "EQ", .ofNat 9],
      [.text "2024-03-01", .text "EQ", .ofNat 4]] 3

def settlementSurroundings : Surroundings Id :=
  .calm ⟨"settlements", fun _ _ => .ok settlementRecords, .ok ()⟩ .inTurn .epoch

theorem maturityAt_profiles_settlements :
    let readings := settlementRecords.readings "month"
    let exactSeries := ofMonths settlements (Keyed.gather (exactReadings readings))
    ∃ series st', (tradesEngine.maturityAt settlementSurroundings settlementPlan .epoch).run.run
        .initial = (.ok series, st') ∧
      Totals series.total readings .sum ∧ Profiles series.groups readings ∧
      (∀ buckets, Keyed.Collects buckets (labelled (Keyed.gather readings)) →
        profilesOf buckets = series.groups) ∧
      Settles exactSeries.total ∧ ∀ g ∈ exactSeries.groups, Settles g.points := by
  intro readings exactSeries
  have hplan : MaturityPlan.prepare tradesEngine.tables settlements [] = .ok settlementPlan := rfl
  have hfetch : (tradesEngine.fetch settlementSurroundings .figures
      (tradesEngine.maturityFetch settlementPlan .epoch)).run.run .initial =
        (.ok settlementRecords, _) := rfl
  obtain ⟨series, hrun, htotals, _, hgroups, hsettled⟩ :=
    maturityAt_profiles tradesEngine settlementSurroundings hplan .epoch hfetch
  obtain ⟨hprofiles, horder⟩ := hgroups rfl
  exact ⟨series, _, hrun, htotals, hprofiles, horder, hsettled⟩

end Engine

end SnapshotAnalytics

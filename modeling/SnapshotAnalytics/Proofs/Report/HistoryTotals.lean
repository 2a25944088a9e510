import SnapshotAnalytics.Proofs.Report.Accounting
import SnapshotAnalytics.Proofs.Report.AlignedSeries

/-!
# Totals of histories by group

The total of a date is the sum of all its rows, and each row goes under one label of the series. What
is shown under a label are all rows that go there, but of several rows with a label that is shown by
itself the last one only. So a total is what its entries add up to and what was overwritten, and if no
date has two rows with one label, nothing was.
-/

namespace SnapshotAnalytics

open Consolidation

variable {α : Type}

namespace HistorySeries

/-! ## §1 The labels that are shown by themselves -/

section

variable [Amount α] {readings : List (Date × GroupValues α)}

/-- Every label that was read is ranked. -/
theorem mem_ranking {x : Date × GroupValues α} (hx : x ∈ readings) :
    x.2.group ∈ ranking (Keyed.gather readings) := by
  simp only [ranking, List.mem_append]
  -- A label is ranked with those of the latest date, or else by name behind them.
  by_cases hranked : x.2.group ∈ topGroups
      (((Keyed.gather readings).getLast?.map (·.2)).getD []).length
      (((Keyed.gather readings).getLast?.map (·.2)).getD [])
  · exact Or.inl hranked
  · refine Or.inr (Keyed.mem_keys_ofList.mpr ?_)
    rw [List.map_map]
    simp only [Function.comp_def, List.map_id', List.mem_filter, Bool.not_eq_true',
      List.contains_eq_mem, decide_eq_false_iff_not]
    exact ⟨mem_labels.mpr ⟨x, hx, rfl⟩, hranked⟩

/-- Either the whole ranking is shown, or the merged label stands for all groups that are not. -/
theorem shown_cases (limit : Option Nat) (ranking : List String) :
    shown limit ranking = (ranking, false) ∨
      ∃ own, shown limit ranking = (own, true) ∧ othersLabel ∉ own := by
  unfold shown
  cases limit with
  | none => exact Or.inl rfl
  | some n =>
    by_cases hmany : n < ranking.length
    · refine Or.inr ⟨_, if_pos hmany, ?_⟩
      -- The merged label is passed over before the places are taken.
      intro hothers
      have hkept := (List.mem_filter.mp (List.mem_of_mem_take hothers)).2
      simp at hkept
    · exact Or.inl (if_neg hmany)

/-- The labels that a series of readings shows by themselves. -/
def ownLabels (limit : Option Nat) (readings : List (Date × GroupValues α)) : List String :=
  (shown limit (ranking (Keyed.gather readings))).1

end

/-- How rows are parted: all their labels are shown by themselves, or the others are merged. -/
inductive Parts (own : List String) (rows : List (GroupValues α)) : Bool → Prop
  | all (h : ∀ g ∈ rows, g.group ∈ own) : Parts own rows false
  | merged (h : othersLabel ∉ own) : Parts own rows true

namespace Parts

variable {own : List String} {rows : List (GroupValues α)} {merges : Bool}

theorem separates (h : Parts own rows merges) : Separates own rows := by
  cases h with
  | all h => exact fun _ => h
  | merged h => exact fun hothers => absurd hothers h

theorem shownAs_mem (h : Parts own rows merges) {g : GroupValues α} (hg : g ∈ rows) :
    shownAs own g ∈ own ++ if merges then [othersLabel] else [] := by
  by_cases hown : g.group ∈ own
  · rw [shownAs, if_pos hown]
    exact List.mem_append_left _ hown
  · rw [shownAs, if_neg hown]
    cases h with
    | all h => exact absurd (h g hg) hown
    | merged _ => exact List.mem_append_right _ (List.mem_singleton.mpr rfl)

end Parts

/-! ## §2 The figures of a date -/

variable [Amount α]

/-- The figure under a label is made of the rows that count there. -/
theorem figure_pointAt (a : Aggregation) {own : List String} {merges : Bool} (d : Date)
    {rows : List (GroupValues α)} (hparts : Parts own rows merges) {f : GroupFigure α}
    (hf : f ∈ (pointAt a own merges d rows).groups) :
    f.value = a.combineAll (((counted own rows).filter fun g => shownAs own g = f.group).map
      (·.value)) := by
  rcases List.mem_append.mp hf with hown | hmerged
  · obtain ⟨label, hlabel, rfl⟩ := List.mem_map.mp hown
    exact figure_own a hparts.separates hlabel
  · cases hparts with
    | all _ => cases hmerged
    | merged hothers =>
      obtain rfl := List.mem_singleton.mp hmerged
      exact figure_others ⟨a, []⟩ hothers rows

/-! ## §3 Series that account for their readings -/

/-- A series accounts for readings, given the labels that it shows by themselves: there is one point
for every date, with an entry for every label of the series; a total is the sum of all rows of its
date, and an entry is made of those that count under its label; and unless a label is shown twice, each
row counts in exactly one entry or is overwritten. -/
structure AccountsFor (s : HistorySeries α) (readings : List (Date × GroupValues α))
    (a : Aggregation) (own : List String) : Prop where
  ascending : s.points.Pairwise fun p q => p.date < q.date
  dates : ∀ d, (∃ p ∈ s.points, p.date = d) ↔ ∃ x ∈ readings, x.1 = d
  labels : ∀ p ∈ s.points, p.groups.map (·.group) = s.groups
  total : ∀ p ∈ s.points, p.total = Amount.sum ((Keyed.valuesUnder p.date readings).map (·.value))
  figure : ∀ p ∈ s.points, ∀ f ∈ p.groups, f.value = a.combineAll
    (((counted own (Keyed.valuesUnder p.date readings)).filter fun g =>
      shownAs own g = f.group).map (·.value))
  entry : ∀ x ∈ readings, shownAs own x.2 ∈ s.groups
  parts : s.groups.Nodup → ∀ d,
    ((s.groups.flatMap fun label => (counted own (Keyed.valuesUnder d readings)).filter fun g =>
      shownAs own g = label) ++ overwritten own (Keyed.valuesUnder d readings)).Perm
        (Keyed.valuesUnder d readings)

variable {readings : List (Date × GroupValues α)}

/-- Every series of groups accounts for its readings, whatever their labels are. -/
theorem grouped_accounts (a : Aggregation) (limit : Option Nat)
    (readings : List (Date × GroupValues α)) :
    (grouped a limit (Keyed.gather readings)).AccountsFor readings a (ownLabels limit readings) := by
  obtain ⟨own, merges, hshown, hparts⟩ : ∃ own merges,
      shown limit (ranking (Keyed.gather readings)) = (own, merges) ∧
        Parts own (readings.map (·.2)) merges := by
    rcases shown_cases limit (ranking (Keyed.gather readings)) with hall | ⟨own, hown, hothers⟩
    · refine ⟨_, _, hall, .all ?_⟩
      intro g hg
      obtain ⟨x, hx, rfl⟩ := List.mem_map.mp hg
      exact mem_ranking hx
    · exact ⟨own, true, hown, .merged hothers⟩
  -- The rows of a date are among all rows, so they are parted the same way.
  have hunder (d : Date) : Parts own (Keyed.valuesUnder d readings) merges := by
    cases hparts with
    | all h =>
      refine .all fun g hg => h g ?_
      exact List.mem_map_of_mem (f := (·.2)) (Keyed.mem_of_mem_valuesUnder hg)
    | merged h => exact .merged h
  -- A point is made of the rows that are gathered under its date.
  have hpoint : ∀ p ∈ (Keyed.gather readings).map fun entry => pointAt a own merges entry.1 entry.2,
      p = pointAt a own merges p.date (Keyed.valuesUnder p.date readings) := by
    intro p hp
    obtain ⟨⟨d, rows⟩, hmem, rfl⟩ := List.mem_map.mp hp
    obtain ⟨_, rfl⟩ := Keyed.mem_gather.mp hmem
    rfl
  have hentry : ∀ x ∈ readings,
      shownAs own x.2 ∈ own ++ if merges then [othersLabel] else [] :=
    fun x hx => hparts.shownAs_mem (List.mem_map_of_mem hx)
  rw [grouped_eq a hshown, ownLabels, hshown]
  constructor
  · exact ascending_points a own merges readings
  · intro d
    exact mem_dates_points a own merges
  · intro p hp
    rw [hpoint p hp]
    simp only [pointAt, List.map_append, map_group_shownFigures]
    cases merges <;> rfl
  · intro p hp
    rw [hpoint p hp]
    rfl
  · intro p hp f hf
    rw [hpoint p hp] at hf
    exact figure_pointAt a p.date (hunder p.date) hf
  · exact hentry
  · intro hgroups d
    exact perm_shown_overwritten hgroups fun g hg => hentry _ (Keyed.mem_of_mem_valuesUnder hg)

/-! ## §4 Exact totals -/

theorem Distinct.exact {readings : List (Date × GroupValues Binary64)} (h : Distinct readings) :
    Distinct (exactReadings readings) :=
  List.pairwise_map.mpr h

/-- A total is what its entries add up to, and what was overwritten. -/
theorem AccountsFor.total_exact {s : HistorySeries ℚ} {readings : List (Date × GroupValues ℚ)}
    {a : Aggregation} {own : List String} (h : s.AccountsFor readings a own) (hmin : a ≠ .min)
    (hmax : a ≠ .max) (hgroups : s.groups.Nodup) {p : HistoryPoint ℚ} (hp : p ∈ s.points) :
    p.total = (p.groups.map (·.value)).sum +
      ((overwritten own (Keyed.valuesUnder p.date readings)).map (·.value)).sum := by
  -- The entries of a point stand in the order of the labels of the series.
  have hentries : p.groups.map (·.value) = s.groups.map fun label =>
      (((counted own (Keyed.valuesUnder p.date readings)).filter fun g =>
        shownAs own g = label).map (·.value)).sum := by
    rw [← h.labels p hp, List.map_map]
    apply List.map_congr_left
    intro f hf
    rw [h.figure p hp f hf, Aggregation.combineAll_exact hmin hmax]
    rfl
  rw [h.total p hp, Amount.sum_exact, hentries]
  apply sum_shown_add_overwritten hgroups
  intro g hg
  exact h.entry _ (Keyed.mem_of_mem_valuesUnder hg)

/-- Where no date has two rows with one label, a total is what its entries add up to. -/
theorem total_exact_of_distinct {readings : List (Date × GroupValues ℚ)} {a : Aggregation}
    (hmin : a ≠ .min) (hmax : a ≠ .max) {limit : Option Nat} (hlimit : ∀ n ∈ limit, 2 ≤ n)
    (hdistinct : Distinct readings) :
    ∀ p ∈ (grouped a limit (Keyed.gather readings)).points,
      p.total = (p.groups.map (·.value)).sum := by
  intro p hp
  have hgroups := (grouped_aligned a hlimit hdistinct).1.nodup
  rw [(grouped_accounts a limit readings).total_exact hmin hmax hgroups hp,
    overwritten_eq_nil _ (hdistinct.nodup p.date), List.map_nil, List.sum_nil, add_zero]

/-- Records that are apart in their dates and labels have different labels at every date, if every date
is written in one way and every label is a text. Other cells can be apart and be read alike: null and
the empty text are one label, and one date has two texts. -/
theorem distinct_readings {r : QueryResult} {column : String}
    {encoding : DateEncoding} (hcells : r.CellsApart [column, "group_key"])
    (hdates : r.DatesWritten encoding column) (hlabels : r.TextLabels) :
    Distinct (r.readings column) := by
  refine List.pairwise_filterMap.mpr (hcells.imp_of_mem fun {x y} hx hy hapart => ?_)
  intro reading hreading reading' hreading' hdate hlabel
  obtain ⟨d, hd, rfl⟩ := Option.map_eq_some_iff.mp hreading
  obtain ⟨d', hd', rfl⟩ := Option.map_eq_some_iff.mp hreading'
  obtain rfl : d = d' := hdate
  obtain ⟨label, hx'⟩ := hlabels x hx
  obtain ⟨label', hy'⟩ := hlabels y hy
  obtain ⟨name, hname, hne⟩ := hapart
  -- Cells that differ in the date are of two dates, as each date has one text.
  rcases List.mem_cons.mp hname with rfl | hname
  · exact hne ((hdates x hx d hd).trans (hdates y hy d hd').symm)
  · obtain rfl := List.mem_singleton.mp hname
    exact BreakdownPlan.labelOf_ne hx' hy' hne hlabel

end HistorySeries

/-! ## §5 Histories -/

theorem HistorySeries.ofSnapshots_grouped [Amount α] {spec : HistorySpec}
    (hgroup : spec.groupBy.isSome = true) (snapshots : List (Date × List (GroupValues α))) :
    ofSnapshots spec snapshots = grouped spec.measure.aggregation spec.limit snapshots := by
  obtain ⟨field, hfield⟩ := Option.isSome_iff_exists.mp hgroup
  simp only [ofSnapshots, hfield]

namespace Engine

open HistorySeries

/-- **No row of a history is lost but those that are overwritten**: whatever is fetched for an accepted
history by group of a sum or a count, the series accounts for all rows that have a date, and in exact
arithmetic the total of a date is what its entries add up to and what was overwritten. If no date has
two rows with one label, nothing is overwritten, and totals are the sums of their entries. None has if
the cells of dates and labels are apart, each date is written in one way and each label is a text. -/
theorem historyAt_accounts (e : Engine) (s : Surroundings Id) {spec : HistorySpec}
    {filters : List Filter} {plan : HistoryPlan}
    (hplan : HistoryPlan.prepare e.tables spec filters = .ok plan)
    (hgroup : spec.groupBy.isSome = true)
    (hadditive : spec.measure.aggregation = .sum ∨ spec.measure.aggregation = .count) (base : Date)
    {st st' : CacheState} {r : QueryResult}
    (hfetch : (e.fetch s .figures (e.historyFetch plan base)).run.run st = (.ok r, st')) :
    let readings := r.readings "snapshot"
    let own := ownLabels spec.limit readings
    let exactSeries := ofSnapshots spec (Keyed.gather (exactReadings readings))
    let exactOwn := ownLabels spec.limit (exactReadings readings)
    ∃ series, (e.historyAt s plan base).run.run st = (.ok series, st') ∧
      series.AccountsFor readings spec.measure.aggregation own ∧
      exactSeries.AccountsFor (exactReadings readings) spec.measure.aggregation exactOwn ∧
      (exactSeries.groups.Nodup → ∀ p ∈ exactSeries.points,
        p.total = (p.groups.map (·.value)).sum +
          ((overwritten exactOwn (Keyed.valuesUnder p.date (exactReadings readings))).map
            (·.value)).sum) ∧
      (Distinct readings → series.groups.Nodup ∧
        (∀ d, counted own (Keyed.valuesUnder d readings) = Keyed.valuesUnder d readings) ∧
        ∀ p ∈ exactSeries.points, p.total = (p.groups.map (·.value)).sum) ∧
      ∀ encoding, r.CellsApart ["snapshot", "group_key"] → r.DatesWritten encoding "snapshot" →
        r.TextLabels → Distinct readings := by
  obtain ⟨hprepared, rfl, _⟩ := HistoryPlan.prepared hplan
  intro readings own exactSeries exactOwn
  -- A sum and a count are added up when they are merged.
  have hmin : plan.spec.measure.aggregation ≠ .min := by
    rcases hadditive with h | h <;> simp [h]
  have hmax : plan.spec.measure.aggregation ≠ .max := by
    rcases hadditive with h | h <;> simp [h]
  have hexact : exactSeries = grouped plan.spec.measure.aggregation plan.spec.limit
      (Keyed.gather (exactReadings readings)) := ofSnapshots_grouped hgroup _
  have haccounts := grouped_accounts plan.spec.measure.aggregation plan.spec.limit
    (exactReadings readings)
  rw [hexact]
  refine ⟨grouped plan.spec.measure.aggregation plan.spec.limit (Keyed.gather readings), ?_,
    grouped_accounts _ _ readings, haccounts, ?_, ?_, fun _ => distinct_readings⟩
  · rw [historyAt, CacheM.run_bind, hfetch, ← ofSnapshots_grouped hgroup]
    rfl
  · intro hgroups p hp
    exact haccounts.total_exact hmin hmax hgroups hp
  · intro hdistinct
    refine ⟨(grouped_aligned _ hprepared.limit hdistinct).1.nodup, ?_, ?_⟩
    · intro d
      exact counted_eq_self own (hdistinct.nodup d)
    · -- Labels stay different when figures are read exactly.
      exact total_exact_of_distinct hmin hmax hprepared.limit hdistinct.exact

theorem historyAt_accounts_desks :
    let readings := deskRecords.readings "snapshot"
    let own := ownLabels (some 3) readings
    let exactSeries := ofSnapshots deskHistory (Keyed.gather (exactReadings readings))
    ∃ series st', (tradesEngine.historyAt deskSurroundings deskPlan .epoch).run.run .initial =
        (.ok series, st') ∧
      series.AccountsFor readings .sum own ∧ series.groups.Nodup ∧
      (∀ d, counted own (Keyed.valuesUnder d readings) = Keyed.valuesUnder d readings) ∧
      ∀ p ∈ exactSeries.points, p.total = (p.groups.map (·.value)).sum := by
  intro readings own exactSeries
  have hplan : HistoryPlan.prepare tradesEngine.tables deskHistory [] = .ok deskPlan := rfl
  have hdistinct : Distinct readings := by decide +kernel
  have hfetch : (tradesEngine.fetch deskSurroundings .figures
      (tradesEngine.historyFetch deskPlan .epoch)).run.run .initial = (.ok deskRecords, _) := rfl
  obtain ⟨series, hrun, haccounts, _, _, htotals, _⟩ :=
    historyAt_accounts tradesEngine deskSurroundings hplan rfl (Or.inl rfl) .epoch hfetch
  obtain ⟨hgroups, hcounted, hexact⟩ := htotals hdistinct
  exact ⟨series, _, hrun, haccounts, hgroups, hcounted, hexact⟩

/-! Two records of one date, one without a desk and one whose desk has an empty name. -/

def unnamedRecords : QueryResult :=
  .ofRows [⟨"snapshot", .string, false⟩, ⟨"group_key", .string, true⟩, ⟨"value", .natural, false⟩]
    [[.text "20240131", .null, .ofNat 10], [.text "20240131", .text "", .ofNat 5],
      [.text "20240229", .text "", .ofNat 7]] 3

def unnamedSurroundings : Surroundings Id :=
  .calm ⟨"desks", fun _ _ => .ok unnamedRecords, .ok ()⟩ .inTurn .epoch

/-- Both records count in the total of their date, but the second overwrites the first in the entry of
their label. -/
theorem historyAt_overwritten :
    HistoryPlan.prepare tradesEngine.tables deskHistory [] = .ok deskPlan ∧
      unnamedRecords.CellsApart ["snapshot", "group_key"] ∧ ∃ series st',
      (tradesEngine.historyAt unnamedSurroundings deskPlan .epoch).run.run .initial =
        (.ok series, st') ∧
      ∃ p ∈ series.points, p.total.toRat = 15 ∧ (p.groups.map (·.value.toRat)).sum = 5 := by
  refine ⟨rfl, ?_, _, _, rfl, _, List.mem_cons_self .., ?_⟩
  · have hrecords : unnamedRecords.records =
      [[("group_key", .null), ("snapshot", .text "20240131"), ("value", .ofNat 10)],
        [("group_key", .text ""), ("snapshot", .text "20240131"), ("value", .ofNat 5)],
        [("group_key", .text ""), ("snapshot", .text "20240229"), ("value", .ofNat 7)]] := by
      rfl
    simp [QueryResult.CellsApart, hrecords, Keyed.find?]
  · decide +kernel

end Engine

end SnapshotAnalytics

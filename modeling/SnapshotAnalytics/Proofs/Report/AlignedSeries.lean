import SnapshotAnalytics.Proofs.Calendar.Order
import SnapshotAnalytics.Proofs.Data.Keyed
import SnapshotAnalytics.Proofs.Engine.Fetching
import SnapshotAnalytics.Proofs.Engine.StatementForms
import SnapshotAnalytics.Proofs.Report.TopAndOthers

/-!
# Aligned series

The series of a history by group shows the same labels at every date, in one order. The order is a
ranking of all labels of the history: those of the latest date by value, then all others by name. When
there are more labels than the limit, the first ones of the ranking are shown by themselves and the
last place is for all others together; which ones are kept is decided once, for every date.

All of this is stated on the readings of an answer, which are its records that have a date.
-/

namespace SnapshotAnalytics

/-- The records of an answer that have a date in the given column: the date, the label and the figure
of each, in their order. -/
def QueryResult.readings (column : String) (r : QueryResult) :
    List (Date × GroupValues Binary64) :=
  r.records.filterMap fun record =>
    ((Keyed.find? column record).bind Cell.date?).map fun date =>
      (date, ⟨BreakdownPlan.labelOf record "group_key", BreakdownPlan.figureOf record "value", []⟩)

variable {α : Type}

/-! ## §1 What a series shows -/

/-- The figure of a label in some rows: the one of its row, zero if it has none. -/
structure GroupFigure.IsIn [Amount α] (f : GroupFigure α) (rows : List (GroupValues α)) : Prop where
  present : ∀ g ∈ rows, g.group = f.group → f.value = g.value
  absent : (∀ g ∈ rows, g.group ≠ f.group) → f.value = Amount.zero

/-- The figures of a date: those of the kept labels, in their order, and one for all other rows of
the date if these are merged. -/
structure HistoryPoint.Shows [Amount α] (p : HistoryPoint α) (a : Aggregation)
    (kept : List String) (merges : Bool) (rows : List (GroupValues α)) : Prop where
  total : p.total = Amount.sum (rows.map (·.value))
  figures : ∃ figures : List (GroupFigure α),
    figures.map (·.group) = kept ∧ (∀ f ∈ figures, f.IsIn rows) ∧
      p.groups = figures ++
        if merges then
          [⟨Consolidation.othersLabel,
            a.combineAll ((rows.filter fun g => g.group ∉ kept).map (·.value))⟩]
        else []

namespace HistorySeries

variable (readings : List (Date × GroupValues α))

/-- The rows of the latest date: no reading has a later one. -/
def latestRows : List (GroupValues α) :=
  (readings.filter fun x => ∀ y ∈ readings, y.1 ≤ x.1).map (·.2)

/-- The two parts of the ranking: the rows of the latest date, the largest first and by label among
equals, and the labels that are found at other dates only, by name. -/
structure Ranks [Amount α] (ranked : List (GroupValues α)) (names : List String) : Prop where
  latest : ranked.Perm (latestRows readings)
  byValue : ranked.Pairwise fun x y => Consolidation.byValue x y = .lt
  byName : names.Pairwise fun s s' => compare s s' = .lt
  absent : ∀ label, label ∈ names ↔
    (∃ x ∈ readings, x.2.group = label) ∧ ∀ g ∈ latestRows readings, g.group ≠ label

/-- Which labels of a ranking are shown by themselves, and whether all others are merged. With more
labels than places one place is for the merged ones, and a group that is itself called like them is
passed over. -/
inductive Keeps (ranking : List String) : Option Nat → List String → Bool → Prop
  | all {limit : Option Nat} (h : ∀ n ∈ limit, ranking.length ≤ n) : Keeps ranking limit ranking false
  | first {n : Nat} {kept rest : List String} (h : n < ranking.length)
      (hsplit : ranking.filter (· != Consolidation.othersLabel) = kept ++ rest)
      (hlength : kept.length + 1 = n) : Keeps ranking (some n) kept true

/-- A series of the given readings: one point for every date, in ascending order, and at each of them
the labels of the series, all different, in their order. -/
structure Aligned (s : HistorySeries α) : Prop where
  ascending : s.points.Pairwise fun p q => p.date < q.date
  dates : ∀ d, (∃ p ∈ s.points, p.date = d) ↔ ∃ x ∈ readings, x.1 = d
  nodup : s.groups.Nodup
  labels : ∀ p ∈ s.points, p.groups.map (·.group) = s.groups

/-- A series whose labels are those of the ranking, as far as the limit allows, and whose points show
the rows of their dates. -/
def Limited [Amount α] (a : Aggregation) (limit : Option Nat) (s : HistorySeries α) : Prop :=
  ∃ ranked names kept merges,
    Ranks readings ranked names ∧ Keeps (ranked.map (·.group) ++ names) limit kept merges ∧
      s.groups = (kept ++ if merges then [Consolidation.othersLabel] else []) ∧
      ∀ p ∈ s.points, p.Shows a kept merges (Keyed.valuesUnder p.date readings)

/-- No date has two rows with the same label. -/
def Distinct : Prop :=
  readings.Pairwise fun x y => x.1 = y.1 → x.2.group ≠ y.2.group

instance : Decidable (Distinct readings) :=
  inferInstanceAs (Decidable (List.Pairwise _ readings))

variable {readings}

theorem Distinct.nodup (h : Distinct readings) (d : Date) :
    ((Keyed.valuesUnder d readings).map (·.group)).Nodup := by
  rw [Keyed.valuesUnder, List.map_map, List.Nodup, List.pairwise_map, List.pairwise_filter]
  refine h.imp fun {x y} hxy hx hy => ?_
  simp only [decide_eq_true_eq] at hx hy
  exact hxy (hx.trans hy.symm)

/-! ## §2 The ranking -/

/-- The rows that are gathered last are those of the latest date. -/
theorem getLast?_gather :
    ((Keyed.gather readings).getLast?.map (·.2)).getD [] = latestRows readings := by
  rcases List.eq_nil_or_concat (Keyed.gather readings) with hnil | ⟨earlier, ⟨d, rows⟩, hlast⟩
  · have hempty : readings = [] := by
      apply List.eq_nil_iff_forall_not_mem.mpr
      intro x hx
      have hkey := Keyed.mem_keys_gather.mpr (List.mem_map_of_mem (f := (·.1)) hx)
      rw [hnil] at hkey
      cases hkey
    rw [hempty]
    rfl
  · rw [List.concat_eq_append] at hlast
    have hmem : (d, rows) ∈ Keyed.gather readings := by simp [hlast]
    obtain ⟨hd, hrows⟩ := Keyed.mem_gather.mp hmem
    -- Every date that was read is gathered, and the last one gathered is the largest.
    have hlatest : ∀ x ∈ readings, x.1 ≤ d := by
      intro x hx
      have hkey := Keyed.mem_keys_gather.mpr (List.mem_map_of_mem (f := (·.1)) hx)
      obtain ⟨e, he, hsame⟩ := List.mem_map.mp hkey
      rw [hlast, List.mem_append, List.mem_singleton] at he
      rw [← hsame]
      rcases he with he | rfl
      · have hascending := Keyed.Ascending.gather readings
        rw [hlast] at hascending
        have hlt := (List.pairwise_append.mp hascending).2.2 e he (d, rows) (by simp)
        exact Int.le_of_lt (Date.compare_eq_lt.mp hlt)
      · exact Date.le_refl _
    rw [hlast, List.getLast?_concat, hrows]
    show Keyed.valuesUnder d readings = latestRows readings
    unfold Keyed.valuesUnder latestRows
    congr 1
    -- A row is of the largest date exactly if no other row is of a later one.
    apply List.filter_congr
    intro x hx
    rw [decide_eq_decide]
    constructor
    · rintro rfl
      exact hlatest
    · intro hall
      obtain ⟨y, hy, rfl⟩ := List.mem_map.mp hd
      exact Date.le_antisymm (hlatest x hx) (hall y hy)

/-- The rows of the latest date are those of some date, if there is any reading. -/
theorem latestRows_eq (readings : List (Date × GroupValues α)) :
    latestRows readings = [] ∨ ∃ d, latestRows readings = Keyed.valuesUnder d readings := by
  rw [← getLast?_gather]
  cases hlast : (Keyed.gather readings).getLast? with
  | none => exact Or.inl rfl
  | some entry => exact Or.inr ⟨entry.1, (Keyed.mem_gather.mp (List.mem_of_getLast? hlast)).2⟩

/-- The labels that are gathered are those that were read. -/
theorem mem_labels {label : String} :
    label ∈ (Keyed.gather readings).flatMap (fun (_, rows) => rows.map (·.group)) ↔
      ∃ x ∈ readings, x.2.group = label := by
  simp only [List.mem_flatMap, List.mem_map]
  constructor
  · rintro ⟨⟨d, rows⟩, hmem, g, hg, rfl⟩
    rw [(Keyed.mem_gather.mp hmem).2] at hg
    obtain ⟨x, hx, rfl⟩ := List.mem_map.mp hg
    exact ⟨x, (List.mem_filter.mp hx).1, rfl⟩
  · rintro ⟨x, hx, rfl⟩
    refine ⟨(x.1, Keyed.valuesUnder x.1 readings), ?_, x.2, ?_, rfl⟩
    · exact Keyed.mem_gather.mpr ⟨List.mem_map_of_mem hx, rfl⟩
    · exact List.mem_map_of_mem (List.mem_filter.mpr ⟨hx, by simp⟩)

variable [Amount α]

/-- The ranking is made of its two parts. -/
theorem exists_ranks [Amount.Ranked α] (hlatest : ((latestRows readings).map (·.group)).Nodup) :
    ∃ ranked names, Ranks readings ranked names ∧
      ranking (Keyed.gather readings) = ranked.map (·.group) ++ names := by
  have hlabels {label : String} : label ∈ (Consolidation.ranked (latestRows readings)).map (·.group) ↔
      ∃ g ∈ latestRows readings, g.group = label := by
    rw [List.mem_map]
    simp only [(Consolidation.ranked_perm _).mem_iff]
  -- The first part is ranked by the rows of the last date, the second holds all other labels.
  simp only [ranking, getLast?_gather, Consolidation.topGroups_length]
  refine ⟨_, _, ⟨Consolidation.ranked_perm _, Consolidation.pairwise_ranked hlatest, ?_, ?_⟩, rfl⟩
  · exact List.pairwise_map.mpr (Keyed.Ascending.ofList _)
  · intro label
    rw [Keyed.mem_keys_ofList, List.map_map]
    simp only [Function.comp_def, List.map_id', List.mem_filter, mem_labels, Bool.not_eq_true',
      List.contains_eq_mem, decide_eq_false_iff_not, hlabels, not_exists, not_and]

/-- No label stands in the ranking twice. -/
theorem Ranks.nodup {ranked : List (GroupValues α)} {names : List String}
    (h : Ranks readings ranked names) (hlatest : ((latestRows readings).map (·.group)).Nodup) :
    (ranked.map (·.group) ++ names).Nodup := by
  rw [List.nodup_append']
  refine ⟨(h.latest.map _).nodup_iff.mpr hlatest, ?_, ?_⟩
  · exact Keyed.nodup_of_ascending h.byName
  · intro label hranked hname
    obtain ⟨g, hg, rfl⟩ := List.mem_map.mp hranked
    exact ((h.absent g.group).mp hname).2 g (h.latest.mem_iff.mp hg) rfl

/-! ## §3 The shown labels -/

/-- Passing a group over that is called like the merged one costs one place at most, so all places but
the last are taken. -/
theorem keeps_shown {ranking : List String} (hranking : ranking.Nodup) {limit : Option Nat}
    (hlimit : ∀ n ∈ limit, 2 ≤ n) :
    Keeps ranking limit (shown limit ranking).1 (shown limit ranking).2 := by
  unfold shown
  cases limit with
  | none => exact .all (by simp)
  | some n =>
    have hn : 2 ≤ n := hlimit n rfl
    by_cases hmany : n < ranking.length
    · -- There are more labels than places, so enough of them are left when one is passed over.
      have hlength := List.le_length_erase (a := Consolidation.othersLabel) (l := ranking)
      rw [hranking.erase_eq_filter] at hlength
      simp only [hmany, if_true]
      refine .first hmany (List.take_append_drop (n - 1) _).symm ?_
      rw [List.length_take]
      omega
    · simp only [hmany, if_false]
      exact .all (by simpa using hmany)

example : shown (some 3) ["Others", "EQ", "FX", "CREDIT", "RATES"] = (["EQ", "FX"], true) := by
  decide

/-- What is shown has no label twice: a group that is called like the merged one is not kept beside
it. -/
theorem Keeps.nodup {ranking kept : List String} {limit : Option Nat} {merges : Bool}
    (h : Keeps ranking limit kept merges) (hranking : ranking.Nodup) :
    (kept ++ if merges then [Consolidation.othersLabel] else []).Nodup := by
  cases h with
  | all _ => simpa using hranking
  | @first n kept rest _ hsplit _ =>
    have hfilter := hranking.filter (· != Consolidation.othersLabel)
    rw [hsplit] at hfilter
    rw [if_pos rfl, List.nodup_append']
    refine ⟨(List.nodup_append'.mp hfilter).1, List.nodup_singleton _, ?_⟩
    intro label hkept hothers
    -- A kept label is not the one of the others, which was passed over.
    have hmem : label ∈ kept ++ rest := List.mem_append_left _ hkept
    rw [← hsplit, List.mem_filter, List.mem_singleton.mp hothers] at hmem
    simp at hmem

/-! ## §4 The figures of a date -/

theorem map_group_shownFigures (labels : List String) (rows : List (GroupValues α)) :
    (shownFigures labels rows).map (·.group) = labels := by
  simp [shownFigures, Function.comp_def]

/-- Each label is shown with the figure of its row. -/
theorem isIn_of_mem_shownFigures {labels : List String} {rows : List (GroupValues α)}
    (hrows : (rows.map (·.group)).Nodup) {f : GroupFigure α} (hf : f ∈ shownFigures labels rows) :
    f.IsIn rows := by
  obtain ⟨label, _, rfl⟩ := List.mem_map.mp hf
  constructor
  · rintro g hg rfl
    rw [Breakdown.groupOf?_eq_some hrows hg]
    rfl
  · intro hnone
    rw [Breakdown.groupOf?_eq_none hnone]
    rfl

/-- The merged figure is the combination of all rows whose labels are not kept. -/
theorem mergedFigure_eq (a : Aggregation) (labels : List String) (rows : List (GroupValues α)) :
    mergedFigure a labels rows = ⟨Consolidation.othersLabel,
      a.combineAll ((rows.filter fun g => g.group ∉ labels).map (·.value))⟩ := by
  have hrest : Consolidation.rest labels rows = rows.filter fun g => g.group ∉ labels := by
    simp [Consolidation.rest]
  rw [mergedFigure, (Breakdown.others_columns ⟨a, []⟩ labels rows).1, hrest]

/-- The point of a date whose rows are given. -/
def pointAt (a : Aggregation) (kept : List String) (merges : Bool) (d : Date)
    (rows : List (GroupValues α)) : HistoryPoint α :=
  ⟨d, totalOf rows, shownFigures kept rows ++ if merges then [mergedFigure a kept rows] else []⟩

theorem shows_pointAt (a : Aggregation) (kept : List String) (merges : Bool) (d : Date)
    {rows : List (GroupValues α)} (hrows : (rows.map (·.group)).Nodup) :
    (pointAt a kept merges d rows).Shows a kept merges rows := by
  refine ⟨rfl, shownFigures kept rows, map_group_shownFigures kept rows, ?_, ?_⟩
  · intro f hf
    exact isIn_of_mem_shownFigures hrows hf
  · rw [← mergedFigure_eq]
    rfl

theorem labels_of_shows {p : HistoryPoint α} {a : Aggregation} {kept : List String} {merges : Bool}
    {rows : List (GroupValues α)} (h : p.Shows a kept merges rows) :
    p.groups.map (·.group) = kept ++ if merges then [Consolidation.othersLabel] else [] := by
  obtain ⟨figures, hlabels, _, hgroups⟩ := h.figures
  rw [hgroups, List.map_append, hlabels]
  cases merges <;> rfl

/-! ## §5 Series -/

theorem grouped_eq (a : Aggregation) {limit : Option Nat}
    {snapshots : List (Date × List (GroupValues α))} {kept : List String} {merges : Bool}
    (h : shown limit (ranking snapshots) = (kept, merges)) :
    grouped a limit snapshots =
      ⟨kept ++ if merges then [Consolidation.othersLabel] else [],
        snapshots.map fun entry => pointAt a kept merges entry.1 entry.2⟩ := by
  rw [grouped, h]
  rfl

theorem ascending_points (a : Aggregation) (kept : List String) (merges : Bool)
    (readings : List (Date × GroupValues α)) :
    ((Keyed.gather readings).map fun entry => pointAt a kept merges entry.1 entry.2).Pairwise
      fun p q => p.date < q.date := by
  apply List.pairwise_map.mpr
  exact (Keyed.Ascending.gather readings).imp Date.compare_eq_lt.mp

/-- The dates of the points are the keys under which the readings were gathered. -/
theorem mem_dates_points (a : Aggregation) (kept : List String) (merges : Bool) {d : Date} :
    (∃ p ∈ (Keyed.gather readings).map fun entry => pointAt a kept merges entry.1 entry.2,
      p.date = d) ↔ ∃ x ∈ readings, x.1 = d := by
  have hkeys : d ∈ (Keyed.gather readings).map (·.1) ↔ d ∈ readings.map (·.1) :=
    Keyed.mem_keys_gather
  simp only [List.mem_map, exists_exists_and_eq_and] at hkeys ⊢
  exact hkeys

/-- A series of groups is aligned and limited, as long as no date has two rows with one label. -/
theorem grouped_aligned [Amount.Ranked α] (a : Aggregation) {limit : Option Nat}
    (hlimit : ∀ n ∈ limit, 2 ≤ n) (hdistinct : Distinct readings) :
    (grouped a limit (Keyed.gather readings)).Aligned readings ∧
      (grouped a limit (Keyed.gather readings)).Limited readings a limit := by
  -- Labels are ranked by the rows of the last date, which are told apart by their labels.
  have hlatest : ((latestRows readings).map (·.group)).Nodup := by
    rcases latestRows_eq readings with hnone | ⟨d, hd⟩
    · rw [hnone]
      exact List.nodup_nil
    · rw [hd]
      exact hdistinct.nodup d
  obtain ⟨ranked, names, hranks, hranking⟩ := exists_ranks hlatest
  have hnodup := hranks.nodup hlatest
  have hkeeps := keeps_shown hnodup hlimit
  rcases hshown : shown limit (ranked.map (·.group) ++ names) with ⟨kept, merges⟩
  rw [hshown] at hkeeps
  rw [grouped_eq a (by rw [hranking, hshown])]
  have hpoint : ∀ p ∈ (Keyed.gather readings).map fun entry => pointAt a kept merges entry.1 entry.2,
      p.Shows a kept merges (Keyed.valuesUnder p.date readings) := by
    intro p hp
    obtain ⟨⟨d, rows⟩, hmem, rfl⟩ := List.mem_map.mp hp
    obtain ⟨_, rfl⟩ := Keyed.mem_gather.mp hmem
    exact shows_pointAt a kept merges d (hdistinct.nodup d)
  refine ⟨⟨?_, ?_, hkeeps.nodup hnodup, ?_⟩, ranked, names, kept, merges, hranks, hkeeps, rfl,
    hpoint⟩
  · exact ascending_points a kept merges readings
  · intro d
    exact mem_dates_points a kept merges
  · intro p hp
    exact labels_of_shows (hpoint p hp)

end HistorySeries

/-! ## §6 Histories -/

namespace Engine

/-- **Histories by group are aligned and limited**: whatever is fetched for an accepted history by
group, as long as no date has two rows with one label. -/
theorem historyAt_aligned (e : Engine) (s : Surroundings Id) {spec : HistorySpec}
    {filters : List Filter} {plan : HistoryPlan}
    (hplan : HistoryPlan.prepare e.tables spec filters = .ok plan)
    (hgroup : spec.groupBy.isSome = true) (base : Date) {st st' : CacheState} {r : QueryResult}
    (hfetch : (e.fetch s .figures (e.historyFetch plan base)).run.run st = (.ok r, st'))
    (hdistinct : HistorySeries.Distinct (r.readings "snapshot")) :
    ∃ series, (e.historyAt s plan base).run.run st = (.ok series, st') ∧
      series.Aligned (r.readings "snapshot") ∧
      series.Limited (r.readings "snapshot") spec.measure.aggregation spec.limit := by
  obtain ⟨hprepared, rfl, _⟩ := HistoryPlan.prepared hplan
  -- A history by group is the series of the groups of its dates.
  have hseries : HistorySeries.ofSnapshots plan.spec (r.groupsByDate "snapshot") =
      HistorySeries.grouped plan.spec.measure.aggregation plan.spec.limit
        (Keyed.gather (r.readings "snapshot")) := by
    obtain ⟨field, hfield⟩ := Option.isSome_iff_exists.mp hgroup
    rw [HistorySeries.ofSnapshots, hfield]
    rfl
  refine ⟨HistorySeries.ofSnapshots plan.spec (r.groupsByDate "snapshot"), ?_, ?_⟩
  · rw [historyAt, CacheM.run_bind, hfetch]
    rfl
  · rw [hseries]
    exact HistorySeries.grouped_aligned _ hprepared.limit hdistinct

/-! A history of three desks at most: at the latest date one desk is called like the merged group and
two have the same value; two further desks are found at earlier dates only, and one record has no
date. -/

/-- The traded sizes by desk. -/
def deskHistory : HistorySpec :=
  ⟨"trades", .sum "size", some "desk", none, some 3⟩

def deskPlan : HistoryPlan :=
  ⟨trades, deskHistory, [], []⟩

def deskRecords : QueryResult :=
  .ofRows [⟨"snapshot", .string, false⟩, ⟨"group_key", .string, false⟩, ⟨"value", .natural, false⟩]
    [[.text "20240229", .text "FX", .ofNat 4], [.text "20240229", .text "EQ", .ofNat 4],
      [.text "20240229", .text "Others", .ofNat 9], [.text "20240131", .text "FX", .ofNat 2],
      [.text "20240131", .text "RATES", .ofNat 7], [.text "20231229", .text "CREDIT", .ofNat 5],
      [.null, .text "FX", .ofNat 1]] 3

def deskSurroundings : Surroundings Id :=
  .calm ⟨"desks", fun _ _ => .ok deskRecords, .ok ()⟩ .inTurn .epoch

theorem historyAt_aligned_desks :
    ∃ series st', (tradesEngine.historyAt deskSurroundings deskPlan .epoch).run.run .initial =
        (.ok series, st') ∧
      series.Aligned (deskRecords.readings "snapshot") ∧
      series.Limited (deskRecords.readings "snapshot") .sum (some 3) := by
  have hplan : HistoryPlan.prepare tradesEngine.tables deskHistory [] = .ok deskPlan := rfl
  have hdistinct : HistorySeries.Distinct (deskRecords.readings "snapshot") := by
    decide +kernel
  have hfetch : (tradesEngine.fetch deskSurroundings .figures
      (tradesEngine.historyFetch deskPlan .epoch)).run.run .initial = (.ok deskRecords, _) := rfl
  obtain ⟨series, hseries⟩ :=
    historyAt_aligned tradesEngine deskSurroundings hplan rfl .epoch hfetch hdistinct
  exact ⟨series, _, hseries⟩

end Engine

end SnapshotAnalytics

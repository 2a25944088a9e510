import SnapshotAnalytics.Proofs.Cache.Misses
import SnapshotAnalytics.Proofs.Engine.Fetching
import SnapshotAnalytics.Proofs.Report.FetchedGroups
import SnapshotAnalytics.Proofs.Report.Keys

/-!
# Breakdowns and the limit of their statement

The groups of both snapshots of a breakdown are fetched by statements that are ordered and cut on their
own. So a row shows the earlier figures of its group only if the group is among the first ones of the
earlier snapshot as well, and shares are those in the sum of the first groups. Where the limit is not
reached, nothing is cut: earlier figures are those of the groups, and shares are those in the sum of
all groups. That no write crashes is asked throughout, since nothing is answered when one does.
-/

namespace SnapshotAnalytics.Engine

variable {e : Engine} {s : Surroundings Id} {answer : Query → Except QueryError QueryResult}
  {plan : BreakdownPlan} {labels : String → String → Ordering}
  {data : Date → List (GroupValues Binary64)} {current comparison : Date} {st : CacheState}

/-! ## §1 The groups of both snapshots -/

theorem fetchPair_of_lacks (hcalm : ¬ e.MayCrash s) (hb : s.backend.Answers answer)
    {stage stage' : Stage} {f g : Fetch} (hf : st.Lacks (e.cache.keyFor f))
    (hg : st.Lacks (e.cache.keyFor g)) (hkeys : e.cache.keyFor f ≠ e.cache.keyFor g)
    (hfttl : f.ttl ∈ e.lifetimes.all) (hgttl : g.ttl ∈ e.lifetimes.all) :
    ((e.fetchPair s stage stage' f g).run.run st).1 =
      Except.mapError (fun cause => .error (.query cause)) (do
        let r ← answer f.query
        return (r, ← answer g.query)) := by
  rw [fetchPair, adapt_run, Cache.queryPair_of_lacks hb hf hg hkeys]
  exact outcomes_of_not_mayCrash hcalm hfttl hgttl none none

/-- The statements for different snapshots have different keys. -/
theorem eq_of_keyFor_breakdownFetch (he : e.tables.Registered) (hplan : plan.Prepared e.tables)
    (h : e.cache.keyFor (e.breakdownFetch plan current) =
      e.cache.keyFor (e.breakdownFetch plan comparison)) : current = comparison := by
  have hkey := eq_of_keyFor_eq (hplan.isPlain_key he current) (hplan.isPlain_key he comparison) h
  simp only [BreakdownPlan.key, CacheKey.breakdown.injEq] at hkey
  exact hkey.2.2.1

/-- From a store that is empty or holds nothing readable, the answers for both snapshots are those of
the backend. Only for one snapshot taken twice can the second answer be read from the text of the
first. -/
theorem fetchPair_breakdown (he : e.tables.Registered) (hplan : plan.Prepared e.tables)
    (hcalm : ¬ e.MayCrash s) (hb : s.backend.Answers answer)
    (hstart : ∀ entry ∈ st.store.entries, QueryResult.decode? entry.2.value = none)
    (hback : current = comparison → ∀ r r', answer (plan.select current).query = .ok r →
      QueryResult.decode? r.encode = some r' → r' = r) :
    ((e.fetchPair s .figures .comparedFigures (e.breakdownFetch plan current)
        (e.breakdownFetch plan comparison)).run.run st).1 =
      Except.mapError (fun cause => .error (.query cause)) (do
        let r ← answer (plan.select current).query
        return (r, ← answer (plan.select comparison).query)) := by
  have httl (d : Date) : (e.breakdownFetch plan d).ttl ∈ e.lifetimes.all :=
    e.lifetimes.aggregates_mem_all
  -- Two snapshots have two keys, and neither answer is stored. One snapshot has one key, so the
  -- second answer may be what the first one left there.
  by_cases hsame : current = comparison
  · subst hsame
    let asked : List (String × Query) :=
      [(e.cache.keyFor (e.breakdownFetch plan current), (plan.select current).query)]
    have hconsistent : Consistent answer asked := by
      constructor
      · intro x hx y hy _
        rw [List.mem_singleton.mp hx, List.mem_singleton.mp hy]
      · intro x hx r r' hr hread
        rw [List.mem_singleton.mp hx] at hr
        exact hback rfl r r' hr hread
    have hmem : (e.cache.keyFor (e.breakdownFetch plan current),
        (e.breakdownFetch plan current).query) ∈ asked := List.mem_singleton.mpr rfl
    exact fetchPair_truthful hcalm hb hconsistent (.of_unreadable hstart) hmem hmem (httl _) (httl _)
  · have hlacks (key : String) : st.Lacks key := fun entry hentry _ => hstart entry hentry
    exact fetchPair_of_lacks hcalm hb (hlacks _) (hlacks _)
      (fun h => hsame (eq_of_keyFor_breakdownFetch he hplan h)) (httl _) (httl _)

/-- The rows of a breakdown are made of the listed groups of its snapshots. -/
theorem breakdownAt_listed (he : e.tables.Registered) (hplan : plan.Prepared e.tables)
    (hcalm : ¬ e.MayCrash s) (hb : s.backend.Answers answer)
    (hanswers : plan.AnsweredFrom labels answer data)
    (hstart : ∀ entry ∈ st.store.entries, QueryResult.decode? entry.2.value = none)
    (hback : current = comparison → ∀ r r', answer (plan.select current).query = .ok r →
      QueryResult.decode? r.encode = some r' → r' = r) :
    ((e.breakdownAt s plan current comparison).run.run st).1 =
      .ok (Breakdown.rows plan.spec ((plan.select current).listing labels (data current))
        ((plan.select comparison).listing labels (data comparison))) := by
  obtain ⟨r, hr, hheld⟩ := hanswers current current (plan.binds_select current)
  obtain ⟨r', hr', hheld'⟩ := hanswers comparison comparison (plan.binds_select comparison)
  have hpair := fetchPair_breakdown he hplan hcalm hb hstart hback
  rw [hr, hr'] at hpair
  rw [breakdownAt, CacheM.run_bind]
  rcases hstep : (e.fetchPair s .figures .comparedFigures (e.breakdownFetch plan current)
    (e.breakdownFetch plan comparison)).run.run st with ⟨result, st'⟩
  rw [hstep] at hpair
  subst hpair
  -- The records hold the listed groups, so these are what is read from them.
  rw [← BreakdownPlan.groups_eq hheld, ← BreakdownPlan.groups_eq hheld']
  rfl

theorem computeAt_breakdown {request : BreakdownRequest}
    {rows : List (BreakdownRow Binary64)}
    (hplan : BreakdownPlan.prepare e.tables request.spec request.groupBy request.filters = .ok plan)
    (hrows : ((e.breakdownAt s plan current comparison).run.run st).1 = .ok rows) :
    ((e.computeAt s current comparison (.breakdown request)).run.run st).1 = .ok (.breakdown rows) := by
  have hrun : (e.computeAt s current comparison (.breakdown request)).run.run st =
      (e.breakdownAt s plan current comparison >>= fun rows =>
        pure (.breakdown rows) : EngineM Id Payload).run.run st := by
    simp only [computeAt, hplan]
    rfl
  rw [hrun, CacheM.run_bind]
  rcases hstep : (e.breakdownAt s plan current comparison).run.run st with ⟨result, st'⟩
  rw [hstep] at hrows
  subst hrows
  rfl

/-! ## §2 A ranking that is turned round

Fourteen desks: the largest ones of January are the smallest ones of February. A breakdown asks for
thirteen of them, so its statements leave out a different desk in each month. -/

/-- Deals with the sizes of theirs. -/
def deals : TableSchema :=
  ((TableSchema.ofDateColumn "deals" "day" .compact).withField "desk" .text).withField "size" .number

def dealsEngine : Engine :=
  ⟨⟨"v", true⟩, [("deals", deals)], .default⟩

/-- The sizes of the thirteen largest desks. -/
def thirteenDesks : BreakdownPlan :=
  ⟨deals, ⟨"deals", .sum "size", [], .value, .descending, 13⟩, "desk", [], []⟩

def thirteenDesksRequest : BreakdownRequest :=
  ⟨thirteenDesks.spec, thirteenDesks.groupBy, thirteenDesks.filters, ⟨none, none, none⟩⟩

def deskLabels : List String :=
  ["a", "b", "c", "d", "e", "f", "g", "h", "i", "j", "k", "l", "m", "n"]

/-- Desks with the given labels, the first of them the largest one. -/
def desksInOrder (labels : List String) : List (GroupValues Binary64) :=
  labels.mapIdx fun i label => ⟨label, .ofNat (labels.length - i), []⟩

/-- The desks under a stored day. -/
def desksUnder (stored : String) : List (GroupValues Binary64) :=
  if stored = "20230131" then desksInOrder deskLabels
  else if stored = "20230228" then desksInOrder deskLabels.reverse
  else []

/-- The desks of a day. -/
def desksOf (d : Date) : List (GroupValues Binary64) :=
  desksUnder (deals.encoding.encode d)

/-- A warehouse that holds the desks; every query but that for the largest ones is refused. -/
def desksAnswer (q : Query) : Except QueryError QueryResult :=
  match (Parameter.find? "snapshot" q.parameters).map (·.value) with
  | some stored =>
    if q.sql = (thirteenDesks.select .epoch).query.sql then
      .ok (.ofRows [⟨"group_key", .string, false⟩, ⟨"value", .float, false⟩]
        (((desksUnder stored).take 13).map fun g => [.text g.group, .ofAmount g.value]) 7)
    else .error (.execution "no such table")
  | none => .error (.execution "no snapshot")

def desksSurroundings : Surroundings Id :=
  .calm ⟨"desks", fun _ => desksAnswer, .ok ()⟩ .inTurn .epoch

/-- What is known of the desks under any day: they are in the order of the statement, and each has a
value of its own and nothing else. -/
theorem desksUnder_ok (stored : String) :
    ((desksUnder stored).Pairwise fun x y =>
        (Ordered.lexicographic compare thirteenDesks.order x y).isLE = true) ∧
      ((desksUnder stored).map (·.group)).Nodup ∧
      ∀ g ∈ desksUnder stored, g.value.isFinite = true ∧ g.results = [] := by
  unfold desksUnder
  split
  · exact ⟨by decide +kernel, by decide +kernel, by decide +kernel⟩
  · split
    · exact ⟨by decide +kernel, by decide +kernel, by decide +kernel⟩
    · exact ⟨.nil, .nil, by simp⟩

/-- A record of a label and a finite value holds a group without results. -/
theorem holds_record {g : GroupValues Binary64} (hvalue : g.value.isFinite = true)
    (hresults : g.results = []) :
    thirteenDesks.Holds
      (Keyed.ofList [("group_key", .text g.group), ("value", .ofAmount g.value)]) g := by
  have hcell : Json.ofAmount g.value = .number (.double g.value hvalue) := by
    simp [Json.ofAmount, Json.Number.ofBinary64?, hvalue]
  -- The members of the record are in the order of their names, the label first.
  have hbehind : compare "value" "group_key" = .gt := by decide +kernel
  constructor
  · simp [Keyed.ofList, Keyed.insert, Keyed.find?, hbehind, Cell.label]
  · simp [Keyed.ofList, Keyed.insert, Keyed.find?, hbehind, hcell, Cell.figure,
      Json.Number.toBinary64]
  · rw [hresults]
    rfl
  · intro i hi
    cases hi

theorem nodup_desksOf (d : Date) : ((desksOf d).map (·.group)).Nodup :=
  (desksUnder_ok _).2.1

theorem listing_desksOf (snapshot d : Date) :
    (thirteenDesks.select snapshot).listing compare (desksOf d) = (desksOf d).take 13 := by
  rw [Select.listing_eq (n := 13) rfl]
  exact congrArg (List.take 13) (List.mergeSort_of_pairwise (desksUnder_ok _).1)

theorem answeredFrom_desks : thirteenDesks.AnsweredFrom compare desksAnswer desksOf := by
  intro snapshot bound hbound
  have hsql : (thirteenDesks.select snapshot).query.sql =
      (thirteenDesks.select .epoch).query.sql := rfl
  refine ⟨.ofRows [⟨"group_key", .string, false⟩, ⟨"value", .float, false⟩]
    (((desksOf bound).take 13).map fun g => [.text g.group, .ofAmount g.value]) 7, ?_, ?_⟩
  · unfold desksAnswer
    rw [hbound]
    exact if_pos hsql
  · rw [listing_desksOf, QueryResult.records, List.forall₂_map_left_iff, QueryResult.ofRows,
      List.forall₂_map_left_iff, List.forall₂_same]
    intro g hg
    -- Every desk has a finite size and no results, so a record can hold it.
    obtain ⟨hvalue, hresults⟩ := (desksUnder_ok _).2.2 g (List.mem_of_mem_take hg)
    exact holds_record hvalue hresults

/-- The days of the desks. -/
def january : Date := ⟨2023, 1, 31, by decide⟩

def february : Date := ⟨2023, 2, 28, by decide⟩

theorem registered_deals : dealsEngine.tables.Registered :=
  .register .empty (.withField (.withField (.ofDateColumn ..) ..) ..)
    (show TableRegistry.register [] deals = .ok dealsEngine.tables by decide +kernel)

theorem not_mayCrash_desks : ¬ dealsEngine.MayCrash desksSurroundings :=
  not_mayCrash_calm (by decide)

theorem prepare_thirteenDesks :
    BreakdownPlan.prepare dealsEngine.tables thirteenDesksRequest.spec thirteenDesksRequest.groupBy
      thirteenDesksRequest.filters = .ok thirteenDesks :=
  rfl

/-- The rows of the breakdown in February, compared with January. -/
theorem computeAt_desks :
    ((dealsEngine.computeAt desksSurroundings february january
      (.breakdown thirteenDesksRequest)).run.run .initial).1 =
        .ok (.breakdown (Breakdown.rows thirteenDesks.spec ((desksOf february).take 13)
          ((desksOf january).take 13))) := by
  apply computeAt_breakdown prepare_thirteenDesks
  rw [← listing_desksOf february, ← listing_desksOf january]
  apply breakdownAt_listed registered_deals (BreakdownPlan.prepared prepare_thirteenDesks).1
    not_mayCrash_desks (fun _ _ => rfl) answeredFrom_desks
  · intro entry hentry
    cases hentry
  · intro hsame
    exact absurd hsame (by decide)

/-! ## §3 Earlier figures -/

/-- **Earlier figures reach as far as the limit**: a row shows the earlier value of its group if few
enough groups come before the group at the earlier snapshot, and zero otherwise. When there are no more
groups than are fetched, every row shows the earlier value of its group. Only when a snapshot is compared
with itself is an answer read from its text, which then has to give the same answer. -/
theorem previous_within_limit (e : Engine) (he : e.tables.Registered) (s : Surroundings Id)
    (hcalm : ¬ e.MayCrash s) (answer : Query → Except QueryError QueryResult)
    (hb : s.backend.Answers answer) (request : BreakdownRequest) (plan : BreakdownPlan)
    (hplan : BreakdownPlan.prepare e.tables request.spec request.groupBy request.filters = .ok plan)
    (labels : String → String → Ordering) [Std.TransCmp labels] [Std.LawfulEqCmp labels]
    (data : Date → List (GroupValues Binary64)) (hdata : ∀ d, ((data d).map (·.group)).Nodup)
    (hanswers : plan.AnsweredFrom labels answer data) (current comparison : Date)
    (hback : current = comparison → ∀ r r', answer (plan.select current).query = .ok r →
      QueryResult.decode? r.encode = some r' → r' = r)
    (st : CacheState)
    (hstart : ∀ entry ∈ st.store.entries, QueryResult.decode? entry.2.value = none) :
    let fetched := Consolidation.fetchLimit request.spec.limit
    ∃ rows,
      ((e.computeAt s current comparison (.breakdown request)).run.run st).1 =
        .ok (.breakdown rows) ∧
      ∀ row ∈ rows, row.isOthers = false →
        (∃ g ∈ data current, g.group = row.group ∧ g.value = row.figures.current) ∧
        ((∀ p ∈ data comparison, p.group ≠ row.group) → row.figures.previous = Amount.zero) ∧
        ∀ p ∈ data comparison, p.group = row.group →
          (row.figures.previous =
            if (plan.select comparison).placeOf labels (data comparison) p < fetched then p.value
            else Amount.zero) ∧
          ((data comparison).length ≤ fetched → row.figures.previous = p.value) := by
  intro fetched
  obtain ⟨hprepared, hspec, _⟩ := BreakdownPlan.prepared hplan
  have hlimit : (plan.select comparison).limit = some fetched := by
    rw [BreakdownPlan.select, hspec]
  -- The rows are made of the listed groups, those in the first places at each snapshot.
  have hrows := breakdownAt_listed he hprepared hcalm hb hanswers hstart hback
  refine ⟨_, computeAt_breakdown hplan hrows, ?_⟩
  intro row hrow hown
  obtain ⟨g, hg, hshows⟩ :=
    Breakdown.shows_of_mem_rows (Select.nodup_listing (hdata comparison)) hrow hown
  refine ⟨⟨g, Select.mem_of_mem_listing hg, hshows.group.symm, hshows.current.symm⟩,
    hshows.previous_of_absent, ?_⟩
  intro p hp hgroup
  have hprevious :=
    hshows.previous_eq hlimit plan.exists_label_mem_order (hdata comparison) hp hgroup
  refine ⟨hprevious, ?_⟩
  intro hfew
  -- If there are no more groups than are fetched, each of them is listed.
  have hplace : (plan.select comparison).placeOf labels (data comparison) p < fetched := by
    rw [← Select.mem_listing_iff hlimit plan.exists_label_mem_order (hdata comparison) hp]
    exact (Select.listing_perm hlimit hfew).mem_iff.mpr hp
  rw [hprevious, if_pos hplace]

theorem previous_within_limit_desks :
    ∃ rows,
      ((dealsEngine.computeAt desksSurroundings february january
        (.breakdown thirteenDesksRequest)).run.run .initial).1 = .ok (.breakdown rows) ∧
      ∀ row ∈ rows, row.isOthers = false →
        (∃ g ∈ desksOf february, g.group = row.group ∧ g.value = row.figures.current) ∧
        ((∀ p ∈ desksOf january, p.group ≠ row.group) → row.figures.previous = Amount.zero) ∧
        ∀ p ∈ desksOf january, p.group = row.group →
          (row.figures.previous =
            if (thirteenDesks.select january).placeOf compare (desksOf january) p < 13 then p.value
            else Amount.zero) ∧
          ((desksOf january).length ≤ 13 → row.figures.previous = p.value) := by
  apply previous_within_limit dealsEngine registered_deals desksSurroundings not_mayCrash_desks
    desksAnswer (fun _ _ => rfl) thirteenDesksRequest thirteenDesks prepare_thirteenDesks compare desksOf
    (fun _ => nodup_desksOf _) answeredFrom_desks
  · intro hsame
    exact absurd hsame (by decide)
  · intro entry hentry
    cases hentry

/-- A desk that is the largest one and was the smallest one before is shown as if it had not been there
before, though it was. -/
theorem previous_cut :
    thirteenDesks.AnsweredFrom compare desksAnswer desksOf ∧ ∃ rows,
      ((dealsEngine.computeAt desksSurroundings february january
        (.breakdown thirteenDesksRequest)).run.run .initial).1 = .ok (.breakdown rows) ∧
      ∃ row ∈ rows, row.isOthers = false ∧
        ∃ p ∈ desksOf january, p.group = row.group ∧
          p.value = .ofNat 1 ∧ row.figures.previous = Amount.zero := by
  refine ⟨answeredFrom_desks, ?_⟩
  -- The desk is the last of fourteen in January, so the statement does not list it.
  have hnone : Breakdown.groupOf? ((desksOf january).take 13) "n" = none := by
    apply Breakdown.groupOf?_eq_none
    decide +kernel
  have hlast : (desksOf january)[13]? = some ⟨"n", .ofNat 1, []⟩ := rfl
  refine ⟨_, computeAt_desks, _, List.mem_map_of_mem (List.mem_cons_self ..), rfl,
    _, List.mem_of_getElem? hlast, rfl, rfl, ?_⟩
  exact congrArg (fun before => (before.map GroupValues.value).getD Amount.zero) hnone

/-! ## §4 Shares -/

/-- **Shares are those in the sum of the fetched groups**: the groups of the current snapshot before
which few enough others come. When there are no more groups than are fetched, these are all groups. As
for earlier figures, an answer is read from its text only when a snapshot is compared with itself. -/
theorem share_of_fetched (e : Engine) (he : e.tables.Registered) (s : Surroundings Id)
    (hcalm : ¬ e.MayCrash s) (answer : Query → Except QueryError QueryResult)
    (hb : s.backend.Answers answer) (request : BreakdownRequest) (plan : BreakdownPlan)
    (hplan : BreakdownPlan.prepare e.tables request.spec request.groupBy request.filters = .ok plan)
    (labels : String → String → Ordering) [Std.TransCmp labels] [Std.LawfulEqCmp labels]
    (data : Date → List (GroupValues Binary64)) (hdata : ∀ d, ((data d).map (·.group)).Nodup)
    (hanswers : plan.AnsweredFrom labels answer data) (current comparison : Date)
    (hback : current = comparison → ∀ r r', answer (plan.select current).query = .ok r →
      QueryResult.decode? r.encode = some r' → r' = r)
    (st : CacheState)
    (hstart : ∀ entry ∈ st.store.entries, QueryResult.decode? entry.2.value = none) :
    let fetched := Consolidation.fetchLimit request.spec.limit
    let counted := (plan.select current).listing labels (data current)
    (∃ rows,
      ((e.computeAt s current comparison (.breakdown request)).run.run st).1 =
        .ok (.breakdown rows) ∧
      ∀ row ∈ rows, row.percentageOfTotal =
        Amount.percentage row.figures.current (Amount.sum (counted.map (·.value)))) ∧
      (∀ g ∈ data current,
        g ∈ counted ↔ (plan.select current).placeOf labels (data current) g < fetched) ∧
      ((data current).length ≤ fetched → counted.Perm (data current)) := by
  intro fetched counted
  obtain ⟨hprepared, hspec, _⟩ := BreakdownPlan.prepared hplan
  have hlimit : (plan.select current).limit = some fetched := by
    rw [BreakdownPlan.select, hspec]
  -- Shares are taken in the sum of the listed groups, and only those are fetched.
  have hrows := breakdownAt_listed he hprepared hcalm hb hanswers hstart hback
  refine ⟨⟨_, computeAt_breakdown hplan hrows, ?_⟩, ?_, ?_⟩
  · intro row hrow
    exact Breakdown.percentage_of_mem_rows hrow
  · intro g hg
    exact Select.mem_listing_iff hlimit plan.exists_label_mem_order (hdata current) hg
  · intro hfew
    exact Select.listing_perm hlimit hfew

theorem share_of_fetched_desks :
    let counted := (thirteenDesks.select february).listing compare (desksOf february)
    (∃ rows,
      ((dealsEngine.computeAt desksSurroundings february january
        (.breakdown thirteenDesksRequest)).run.run .initial).1 = .ok (.breakdown rows) ∧
      ∀ row ∈ rows, row.percentageOfTotal =
        Amount.percentage row.figures.current (Amount.sum (counted.map (·.value)))) ∧
      (∀ g ∈ desksOf february,
        g ∈ counted ↔ (thirteenDesks.select february).placeOf compare (desksOf february) g < 13) ∧
      ((desksOf february).length ≤ 13 → counted.Perm (desksOf february)) := by
  apply share_of_fetched dealsEngine registered_deals desksSurroundings not_mayCrash_desks
    desksAnswer (fun _ _ => rfl) thirteenDesksRequest thirteenDesks prepare_thirteenDesks compare desksOf
    (fun _ => nodup_desksOf _) answeredFrom_desks february january
  · intro hsame
    exact absurd hsame (by decide)
  · intro entry hentry
    cases hentry

/-- The smallest desk is left out of the sum that shares are those in. -/
theorem share_cut :
    thirteenDesks.AnsweredFrom compare desksAnswer desksOf ∧ ∃ rows,
      ((dealsEngine.computeAt desksSurroundings february january
        (.breakdown thirteenDesksRequest)).run.run .initial).1 = .ok (.breakdown rows) ∧
      ∃ row ∈ rows, row.percentageOfTotal ≠
        Amount.percentage row.figures.current
          (Amount.sum ((desksOf february).map (·.value))) := by
  refine ⟨answeredFrom_desks, _, computeAt_desks, _, List.mem_map_of_mem (List.mem_cons_self ..), ?_⟩
  decide +kernel

end SnapshotAnalytics.Engine

import SnapshotAnalytics.Engine.Basic
import SnapshotAnalytics.Proofs.Engine.ReadRequests
import SnapshotAnalytics.Proofs.Report.Keys

/-!
# Keys that say what was asked for

A key of this kind names the kind of what is asked for, the table, the dates, and short digests of
the specification and the filters. That is enough: for requests that were read, over one registry,
what is asked for under the same key is the same statement with the same parameters, as long as the
digests do not collide on what the two requests contain.
-/

namespace SnapshotAnalytics

/-! ## §1 What is asked for under a key -/

/-- The figures of a checked report at a snapshot, or the snapshot for a day. -/
inductive Inquiry where
  | breakdown (plan : BreakdownPlan) (snapshot : Date)
  | statCard (plan : StatCardPlan) (snapshot : Date)
  | history (plan : HistoryPlan) (base : Date)
  | maturity (plan : MaturityPlan) (snapshot : Date)
  | resolution (t : TableSchema) (direction : Direction) (target : Date)

namespace Inquiry

/-- The key of an inquiry. -/
def key : Inquiry → CacheKey
  | breakdown plan snapshot => plan.key snapshot
  | statCard plan snapshot => plan.key snapshot
  | history plan base => plan.key base
  | maturity plan snapshot => plan.key snapshot
  | resolution t direction target => Resolution.key t direction target

/-- What an engine asks its cache for. -/
def fetch (e : Engine) : Inquiry → Fetch
  | breakdown plan snapshot => e.breakdownFetch plan snapshot
  | statCard plan snapshot => e.statCardFetch plan snapshot
  | history plan base => e.historyFetch plan base
  | maturity plan snapshot => e.maturityFetch plan snapshot
  | resolution t direction target => e.resolutionOf t direction target

theorem key_fetch (e : Engine) (i : Inquiry) : (i.fetch e).key = some i.key.text := by
  cases i <;> rfl

end Inquiry

namespace Request

/-- What a request can ask for under a key, at any snapshots: the figures of its own report once it
is checked, and the snapshot of its table for a day. -/
inductive MayAsk (tables : TableRegistry) : Request → Inquiry → Prop
  | breakdown {r : BreakdownRequest} {plan : BreakdownPlan}
      (h : BreakdownPlan.prepare tables r.spec r.groupBy r.filters = .ok plan) (snapshot : Date) :
      MayAsk tables (.breakdown r) (.breakdown plan snapshot)
  | statCard {r : StatCardRequest} {plan : StatCardPlan}
      (h : StatCardPlan.prepare tables r.spec r.filters = .ok plan) (snapshot : Date) :
      MayAsk tables (.statCard r) (.statCard plan snapshot)
  | history {r : HistoryRequest} {plan : HistoryPlan}
      (h : HistoryPlan.prepare tables r.spec r.filters = .ok plan) (base : Date) :
      MayAsk tables (.history r) (.history plan base)
  | maturity {r : MaturityRequest} {plan : MaturityPlan}
      (h : MaturityPlan.prepare tables r.spec r.filters = .ok plan) (snapshot : Date) :
      MayAsk tables (.maturity r) (.maturity plan snapshot)
  | resolution {r : Request} {t : TableSchema} (h : tables.table r.table = .ok t)
      (direction : Direction) (target : Date) : MayAsk tables r (.resolution t direction target)

/-- The values in a request of which the keys hold digests. -/
def digested : Request → List Json
  | breakdown r => [r.spec.toJson, Filter.listToJson r.filters]
  | statCard r => [r.spec.toJson, Filter.listToJson r.filters]
  | history r => [r.spec.toJson, Filter.listToJson r.filters]
  | maturity r => [r.spec.toJson, Filter.listToJson r.filters]
  | rows _ | distinct _ => []

/-- No two values in two requests have the same short digest, unless they have the same text. -/
def Distinguished (r r' : Request) : Prop :=
  ∀ j ∈ r.digested, ∀ j' ∈ r'.digested,
    CacheKey.fingerprint j = CacheKey.fingerprint j' → j.render = j'.render

end Request

/-! ## §2 Keys without colons -/

/-- The keys of a request over registered tables have no colons in their parts. -/
theorem Request.MayAsk.isPlain_key {tables : TableRegistry} (htables : tables.Registered)
    {r : Request} {i : Inquiry} (h : r.MayAsk tables i) : i.key.IsPlain := by
  cases h with
  | breakdown h snapshot => exact (BreakdownPlan.prepared h).1.isPlain_key htables snapshot
  | statCard h snapshot => exact (StatCardPlan.prepared h).1.isPlain_key htables snapshot
  | history h base => exact (HistoryPlan.prepared h).1.isPlain_key htables base
  | maturity h snapshot => exact (MaturityPlan.prepared h).1.isPlain_key htables snapshot
  | resolution h direction target =>
    exact Resolution.isPlain_key (htables.of_table h).2 direction target

/-! ## §3 What a key determines -/

/-- The specifications of two requests with the same digest have the same text, and so have their
filters. -/
theorem Request.Distinguished.render_eq {r r' : Request} (h : r.Distinguished r')
    {spec filters spec' filters' : Json} (hr : r.digested = [spec, filters])
    (hr' : r'.digested = [spec', filters']) :
    (CacheKey.fingerprint spec = CacheKey.fingerprint spec' → spec.render = spec'.render) ∧
      (CacheKey.fingerprint filters = CacheKey.fingerprint filters' →
        filters.render = filters'.render) := by
  rw [Distinguished, hr, hr'] at h
  have hspec := h spec (List.mem_cons_self ..) spec' (List.mem_cons_self ..)
  have hfilters := h filters (List.mem_cons_of_mem _ (List.mem_cons_self ..)) filters'
    (List.mem_cons_of_mem _ (List.mem_cons_self ..))
  exact ⟨hspec, hfilters⟩

/-- Requests that were read ask for the same under the same key. -/
theorem Inquiry.eq_of_key_eq {tables : TableRegistry} (htables : tables.Registered)
    {r r' : Request} (hr : r.IsRead) (hr' : r'.IsRead) (hdigests : r.Distinguished r')
    {i i' : Inquiry} (hi : r.MayAsk tables i) (hi' : r'.MayAsk tables i')
    (hkey : i.key = i'.key) : i = i' := by
  -- The kind of the key is that of the inquiry, so only the five pairs of one kind are left. In the
  -- first four the digests give back what the plans were prepared from, so the plans are the same.
  cases hi with
  | @breakdown r plan h d =>
    cases hi' with
    | @breakdown r' plan' h' d' =>
      obtain ⟨_, hspec, hgroup, hfilters⟩ := BreakdownPlan.prepared h
      obtain ⟨_, hspec', hgroup', hfilters'⟩ := BreakdownPlan.prepared h'
      simp only [key, BreakdownPlan.key, CacheKey.breakdown.injEq, hspec, hspec', hgroup, hgroup',
        hfilters, hfilters'] at hkey
      obtain ⟨_, hgroups, rfl, hspecDigest, hfiltersDigest⟩ := hkey
      obtain ⟨hspecText, hfiltersText⟩ := hdigests.render_eq rfl rfl
      have hspecs := BreakdownSpec.eq_of_render_eq hr.1 hr'.1 (hspecText hspecDigest)
      have hlists := Filter.eq_of_render_eq hr.2 hr'.2 (hfiltersText hfiltersDigest)
      rw [hspecs, hgroups, hlists, h', Except.ok.injEq] at h
      rw [h]
    | _ => cases hkey
  | @statCard r plan h d =>
    cases hi' with
    | @statCard r' plan' h' d' =>
      obtain ⟨_, hspec, hfilters⟩ := StatCardPlan.prepared h
      obtain ⟨_, hspec', hfilters'⟩ := StatCardPlan.prepared h'
      simp only [key, StatCardPlan.key, CacheKey.statCard.injEq, hspec, hspec', hfilters,
        hfilters'] at hkey
      obtain ⟨_, rfl, hspecDigest, hfiltersDigest⟩ := hkey
      obtain ⟨hspecText, hfiltersText⟩ := hdigests.render_eq rfl rfl
      have hspecs := StatCardSpec.eq_of_render_eq (hspecText hspecDigest)
      have hlists := Filter.eq_of_render_eq hr hr' (hfiltersText hfiltersDigest)
      rw [hspecs, hlists, h', Except.ok.injEq] at h
      rw [h]
    | _ => cases hkey
  | @history r plan h d =>
    cases hi' with
    | @history r' plan' h' d' =>
      obtain ⟨_, hspec, hfilters⟩ := HistoryPlan.prepared h
      obtain ⟨_, hspec', hfilters'⟩ := HistoryPlan.prepared h'
      simp only [key, HistoryPlan.key, CacheKey.history.injEq, hspec, hspec', hfilters,
        hfilters'] at hkey
      obtain ⟨_, rfl, hspecDigest, hfiltersDigest⟩ := hkey
      obtain ⟨hspecText, hfiltersText⟩ := hdigests.render_eq rfl rfl
      have hspecs := HistorySpec.eq_of_render_eq hr.1 hr'.1 (hspecText hspecDigest)
      have hlists := Filter.eq_of_render_eq hr.2 hr'.2 (hfiltersText hfiltersDigest)
      rw [hspecs, hlists, h', Except.ok.injEq] at h
      rw [h]
    | _ => cases hkey
  | @maturity r plan h d =>
    cases hi' with
    | @maturity r' plan' h' d' =>
      obtain ⟨_, hspec, hfilters⟩ := MaturityPlan.prepared h
      obtain ⟨_, hspec', hfilters'⟩ := MaturityPlan.prepared h'
      simp only [key, MaturityPlan.key, CacheKey.maturity.injEq, hspec, hspec', hfilters,
        hfilters'] at hkey
      obtain ⟨_, rfl, hspecDigest, hfiltersDigest⟩ := hkey
      obtain ⟨hspecText, hfiltersText⟩ := hdigests.render_eq rfl rfl
      have hspecs := MaturitySpec.eq_of_render_eq (hspecText hspecDigest)
      have hlists := Filter.eq_of_render_eq hr hr' (hfiltersText hfiltersDigest)
      rw [hspecs, hlists, h', Except.ok.injEq] at h
      rw [h]
    | _ => cases hkey
  | @resolution _ t h direction target =>
    cases hi' with
    | @resolution _ t' h' direction' target' =>
      simp only [key, Resolution.key, CacheKey.resolution.injEq] at hkey
      obtain ⟨hname, rfl, rfl⟩ := hkey
      have htable : r.table = r'.table := by
        rw [← (htables.of_table h).1, ← (htables.of_table h').1, hname]
      rw [htable, h', Except.ok.injEq] at h
      rw [h]
    | _ => cases hkey

/-- **Keys are sound**: over one registry, what two requests that were read ask for under the same
key is the same statement with the same parameters, whatever kinds and snapshots they ask for. -/
theorem Inquiry.query_eq_of_key_eq (e : Engine) (he : e.tables.Registered) (s s' : String)
    (r r' : Request) (hr : Request.read? s = some r) (hr' : Request.read? s' = some r')
    (hdigests : r.Distinguished r') (i i' : Inquiry) (hi : r.MayAsk e.tables i)
    (hi' : r'.MayAsk e.tables i') (hkey : (i.fetch e).key = (i'.fetch e).key) :
    (i.fetch e).query = (i'.fetch e).query := by
  rw [key_fetch, key_fetch, Option.some.injEq] at hkey
  have hkeys : i.key = i'.key :=
    CacheKey.eq_of_text_eq (hi.isPlain_key he) (hi'.isPlain_key he) hkey
  rw [eq_of_key_eq he (Request.isRead_of_read? hr) (Request.isRead_of_read? hr') hdigests hi hi'
    hkeys]

/-! Two texts that ask for the same stat card: the operator is spelled in two ways, and only one of
them names the day. -/

/-- A table of positions. -/
def positions : TableSchema :=
  ((TableSchema.ofDateColumn "positions" "day" .calendar).withField "desk" .text).withField
    "notional" .number

/-- An engine over that table. -/
def positionsEngine : Engine :=
  ⟨⟨"v", true⟩, [("positions", positions)], .default⟩

/-- The total of one desk. -/
def deskTotal : StatCardPlan :=
  ⟨positions, ⟨"positions", [⟨"total", .sum "notional"⟩]⟩,
    [.comparison "desk" "=" ⟨"p0_0", .string, "EQ"⟩], [.equals "desk" "EQ"]⟩

/-- A request for it, for a day if one is given. -/
def deskTotalRequest (asOf : Option Date) : Request :=
  .statCard ⟨deskTotal.spec, deskTotal.filters, ⟨asOf, none, none⟩⟩

/-- A text that asks for it, with a spelling of the operator and further members. -/
def deskTotalText (operator further : String) : String :=
  "\x7b\"kind\":\"stat\",\"table\":\"positions\"," ++
    "\"measures\":[\x7b\"name\":\"total\",\"field\":\"notional\",\"aggregation\":\"sum\"\x7d]," ++
    "\"filters\":[\x7b\"field\":\"desk\",\"operator\":\"" ++ operator ++ "\",\"values\":[\"EQ\"]\x7d]" ++
    further ++ "\x7d"

theorem Inquiry.query_eq_of_key_eq_deskTotal :
    let r := deskTotalRequest none
    let r' := deskTotalRequest (some .epoch)
    r ≠ r' ∧ Request.read? (deskTotalText "IS" "") = some r ∧
      Request.read? (deskTotalText "eq" ",\"asOfDate\":\"1970-01-01\"") = some r' ∧
      ∃ plan plan', r.MayAsk positionsEngine.tables (.statCard plan .epoch) ∧
        r'.MayAsk positionsEngine.tables (.statCard plan' .epoch) ∧
        ((statCard plan .epoch).fetch positionsEngine).query =
          ((statCard plan' .epoch).fetch positionsEngine).query := by
  intro r r'
  have htables : positionsEngine.tables.Registered :=
    .register .empty (.withField (.withField (.ofDateColumn ..) ..) ..)
      (show TableRegistry.register [] positions = .ok positionsEngine.tables by
      decide +kernel)
  have hr : Request.read? (deskTotalText "IS" "") = some r := by decide +kernel
  have hr' : Request.read? (deskTotalText "eq" ",\"asOfDate\":\"1970-01-01\"") = some r' := by
    decide +kernel
  -- The two requests contain the same two values, whose digests are different.
  have hdigests : r.Distinguished r' := by
    have hne : CacheKey.fingerprint deskTotal.spec.toJson ≠
        CacheKey.fingerprint (Filter.listToJson deskTotal.filters) := by
      decide +kernel
    intro j hj j' hj' h
    have hj : j = deskTotal.spec.toJson ∨ j = Filter.listToJson deskTotal.filters := by
      simpa [Request.digested, r, deskTotalRequest] using hj
    have hj' : j' = deskTotal.spec.toJson ∨ j' = Filter.listToJson deskTotal.filters := by
      simpa [Request.digested, r', deskTotalRequest] using hj'
    rcases hj with rfl | rfl <;> rcases hj' with rfl | rfl
    · rfl
    · exact absurd h hne
    · exact absurd h.symm hne
    · rfl
  have hplan : StatCardPlan.prepare positionsEngine.tables deskTotal.spec deskTotal.filters =
      .ok deskTotal := rfl
  -- Either request can ask for the total of that day: the one names it, the other looks it up.
  have hi : r.MayAsk positionsEngine.tables (.statCard deskTotal .epoch) := .statCard hplan .epoch
  have hi' : r'.MayAsk positionsEngine.tables (.statCard deskTotal .epoch) := .statCard hplan .epoch
  refine ⟨by decide +kernel, hr, hr', deskTotal, deskTotal, hi, hi', ?_⟩
  exact query_eq_of_key_eq positionsEngine htables _ _ r r' hr hr' hdigests _ _ hi hi' rfl

end SnapshotAnalytics

import SnapshotAnalytics.Proofs.Cache.Repeats
import SnapshotAnalytics.Proofs.Engine.Refusals
import SnapshotAnalytics.Proofs.Engine.Statements
import SnapshotAnalytics.Proofs.Report.Keys

/-!
# Repeated requests

Each fetch of a request leaves its answer behind, and what later fetches ask for depends on nothing
but what earlier ones found. So a request that is handled again finds at its first fetch what was found
before, asks next under the same key, and comes to the same report: nothing is sent, and every look-up
is a hit. This is proved from fetch to fetch, for work that is done twice and the relation of its two
results.

Only two queries with the same key that are looked up together need not come to the same results: both
are sent then, and when the backend answers them differently, the later answer is the one that is found
again. Repeating the request costs nothing then either, but its data are others.
-/

namespace SnapshotAnalytics

variable {α β : Type} {first last n n' : Nat} {begun : List Query} {st st' : CacheState}

/-- On both days a request is about the same days. -/
def Request.SameDays (today today' : Date) : Request → Prop
  | .breakdown r => r.window.targets today' = r.window.targets today
  | .statCard r => r.window.targets today' = r.window.targets today
  | .history r => r.asOf.getD today' = r.asOf.getD today
  | .maturity r => r.asOf.getD today' = r.asOf.getD today
  | .rows r => r.asOf.getD today' = r.asOf.getD today
  | .distinct r => r.asOf.getD today' = r.asOf.getD today

theorem Request.SameDays.refl (today : Date) (r : Request) : r.SameDays today today := by
  cases r <;> rfl

namespace EngineM

/-! ## §1 Work done twice -/

/-- In every state in which as much is known, work comes to this result by so many hits and nothing
else. -/
def Replays (first last n : Nat) (st : CacheState) (x : EngineM Id α) (a : α) : Prop :=
  ∀ st₁, st₁.Steady first last → st.Extends last st₁ →
    ∃ st₂, x.run.run st₁ = (.ok a, st₂) ∧ st₁.Hits last n st₂

/-- Work loses nothing that is known, and where it comes to a result, a result of other work is then
known that is related to it. What was sent by then, starting from `begun`, may matter to the relation. -/
def Repeats (first last n : Nat) (begun : List Query) (R : List Query → α → α → Prop)
    (x x' : EngineM Id α) : Prop :=
  ∀ st, st.Steady first last → st.sent = begun →
    st.Learns first last (x.run.run st).2 ∧
      ∀ a, (x.run.run st).1 = .ok a →
        ∃ a', R (x.run.run st).2.sent a a' ∧ Replays first last n (x.run.run st).2 x' a'

variable {R : List Query → α → α → Prop} {S : List Query → β → β → Prop} {x x' : EngineM Id α}
  {k k' : α → EngineM Id β} {a a' : α} {b : β}

theorem Replays.mono (h : Replays first last n st x a) (hextends : st.Extends last st') :
    Replays first last n st' x a :=
  fun st₁ hst₁ hextends₁ => h st₁ hst₁ (hextends.trans hextends₁)

theorem Replays.pure (a : α) : Replays first last 0 st (Pure.pure a) a :=
  fun st₁ hst₁ _ => ⟨st₁, rfl, .refl last hst₁.ascending⟩

theorem Replays.bind (hx : Replays first last n st x a) (hk : Replays first last n' st (k a) b) :
    Replays first last (n + n') st (x >>= k) b := by
  intro st₁ hst₁ hextends
  obtain ⟨st₂, hrun, hhits⟩ := hx st₁ hst₁ hextends
  obtain ⟨st₃, hrun', hhits'⟩ := hk st₂ (hhits.steady hst₁) (hextends.trans hhits.extends)
  refine ⟨st₃, ?_, hhits.trans hhits'⟩
  rw [CacheM.run_bind, hrun]
  exact hrun'

namespace Repeats

theorem pure (h : R begun a a') : Repeats first last 0 begun R (Pure.pure a) (Pure.pure a') := by
  rintro st hst rfl
  refine ⟨.refl hst, fun b hb => ?_⟩
  cases hb
  exact ⟨a', h, .pure a'⟩

/-- Steps that repeat one another make up work that does; what the second step is to repeat may depend
on how the results of the first are related. -/
theorem bind (hx : Repeats first last n begun R x x')
    (hk : ∀ sent a a', begun <+: sent → R sent a a' → Repeats first last n' sent S (k a) (k' a')) :
    Repeats first last (n + n') begun S (x >>= k) (x' >>= k') := by
  intro st hst hbegun
  obtain ⟨hlearns₁, hanswer⟩ := hx st hst hbegun
  rw [CacheM.run_bind]
  rcases hrun : x.run.run st with ⟨err | a, st₁⟩ <;> rw [hrun] at hlearns₁ hanswer
  · exact ⟨hlearns₁, nofun⟩
  · -- What the first step left behind is still known behind the second, so both can be replayed there.
    obtain ⟨a', hR, hreplays⟩ := hanswer a rfl
    have hsent : begun <+: st₁.sent := hbegun ▸ hlearns₁.sent
    obtain ⟨hlearns₂, hanswer'⟩ := hk st₁.sent a a' hsent hR st₁ hlearns₁.steady rfl
    refine ⟨hlearns₁.trans hlearns₂, fun b hb => ?_⟩
    obtain ⟨b', hS, hreplays'⟩ := hanswer' b hb
    exact ⟨b', hS, (hreplays.mono hlearns₂.keeps).bind hreplays'⟩

theorem map {f f' : α → β} (hx : Repeats first last n begun R x x')
    (hf : ∀ sent a a', begun <+: sent → R sent a a' → S sent (f a) (f' a')) :
    Repeats first last n begun S (do return f (← x)) (do return f' (← x')) :=
  hx.bind fun sent a a' hsent h => pure (hf sent a a' hsent h)

theorem imp {R' : List Query → α → α → Prop} (hx : Repeats first last n begun R x x')
    (h : ∀ sent a a', R sent a a' → R' sent a a') : Repeats first last n begun R' x x' := by
  intro st hst hbegun
  obtain ⟨hlearns, hanswer⟩ := hx st hst hbegun
  refine ⟨hlearns, fun a ha => ?_⟩
  obtain ⟨a', hR, hreplays⟩ := hanswer a ha
  exact ⟨a', h _ a a' hR, hreplays⟩

/-- A check has the same outcome again, and it leaves everything as it is. -/
theorem check {c c' : Except AnalyticsError α} (hc : c' = c)
    (hk : ∀ a, Repeats first last n begun S (k a) (k' a)) :
    Repeats first last n begun S (Engine.check c >>= k) (Engine.check c' >>= k') := by
  subst hc
  cases c' with
  | error err => exact fun st hst _ => ⟨.refl hst, nofun⟩
  | ok a => exact hk a

end Repeats

end EngineM

/-! ## §2 Fetches -/

/-- A report on a day that is compared with itself. -/
theorem Window.targets_of_fixed {w : Window} {d : Date} (hasOf : w.asOf = some d)
    (hfixed : w.compareDate = some d) (hsame : ¬ d < d) {today : Date} :
    w.targets today = .ok (d, d) := by
  rw [Window.targets, hasOf, hfixed]
  simp only [ComparePeriod.target, Option.getD_some, hsame, if_false]
  rfl

/-- Surroundings in which the store works up to `last`, nothing expires that an engine stores, and the
answers of the backend can be stored. -/
structure Surroundings.Working (e : Engine) (first last : Nat) (s : Surroundings Id) : Prop where
  reads : ∀ stage, Moment.Reads first last (s.timing stage).asked
  writes : ∀ stage, ∀ ttl ∈ e.lifetimes.all, Moment.Writes last ttl (s.timing stage).answered
  storable : s.backend.Storable

/-- How two results that were found once are found again. The second is the same. The first is too,
unless both stand for the same: then the second has taken its place, which makes a difference only if
the two were not alike. -/
structure FoundAgain (alike same : Prop) (found found' : α × α) : Prop where
  second : found'.2 = found.2
  own : ¬ same → found'.1 = found.1
  shared : same → found'.1 = found.2
  alike : alike → found'.1 = found.1

/-- At moments at which nothing fails, everything that an engine stores outlives `last` if all its
lifetimes are longer. -/
theorem Surroundings.working_of_calm {e : Engine} {s : Surroundings Id}
    (htiming : ∀ stage, ∃ now now', s.timing stage = ⟨Moment.calm now, Moment.calm now'⟩ ∧
      now ≤ last ∧ now' ≤ last)
    (httl : ∀ ttl ∈ e.lifetimes.all, last < ttl ∧ last + ttl ≤ lastTime)
    (hb : s.backend.Storable) : s.Working e 0 last := by
  refine ⟨fun stage => ?_, fun stage ttl hmem => ?_, hb⟩ <;>
    obtain ⟨now, now', hstage, hasked, hanswered⟩ := htiming stage <;> rw [hstage]
  · exact ⟨Nat.zero_le now, hasked, rfl⟩
  · obtain ⟨hlong, hfits⟩ := httl ttl hmem
    exact ⟨hanswered, Nat.lt_add_left now' hlong,
      decide_eq_true ((Nat.add_le_add_right hanswered ttl).trans hfits), rfl⟩

namespace Engine

open EngineM

variable {e : Engine} {s s' : Surroundings Id} {stage stage' : Stage} {f g : Fetch}

/-- Full keys that are alike but for a date are the same only for the same date. -/
theorem date_eq_of_keyFor_eq {select select' : Select} {key key' : CacheKey} {ttl ttl' : Nat}
    (front : List String) {back : List String} {d d' : Date} (hkey : key.parts = front ++ d.text :: back)
    (hkey' : key'.parts = front ++ d'.text :: back)
    (h : e.cache.keyFor (fetchOf select (some key) ttl) =
      e.cache.keyFor (fetchOf select' (some key') ttl')) : d = d' := by
  rw [keyFor_fetchOf, keyFor_fetchOf] at h
  exact CacheKey.date_eq_of_text_eq hkey hkey' (by simpa using h)

/-- What is not found is sent, and nothing but its answer is stored. -/
theorem fetch_of_lacks (stage : Stage) (hused : e.cache.enabled = true)
    (hs : s.Working e first last) (hf : f.ttl ∈ e.lifetimes.all)
    (hlacks : st.Lacks (e.cache.keyFor f)) {r : QueryResult}
    (hr : s.backend.answer st.sent f.query = .ok r) :
    ∃ st', (e.fetch s stage f).run.run st = (.ok r, st') ∧ st'.sent = st.sent ++ [f.query] ∧
      ∀ key, st.Lacks key → key ≠ e.cache.keyFor f → st'.Lacks key := by
  obtain ⟨st', hrun, hst'⟩ :=
    Cache.query_of_lacks (s.timing stage) hused (hs.writes stage _ hf) hlacks hr
  refine ⟨st', ?_, hst'⟩
  rw [fetch, adapt_run, hrun]
  rfl

/-- What is not found and refused by the backend is left without an answer. -/
theorem fetch_of_lacks_refused (stage : Stage) (hlacks : st.Lacks (e.cache.keyFor f))
    {cause : QueryError} (hr : s.backend.answer st.sent f.query = .error cause) :
    ∃ st', (e.fetch s stage f).run.run st = (.error (.error (.query cause)), st') ∧
      st'.sent = st.sent ++ [f.query] := by
  have hsent := Cache.sent_start e.cache (s.timing stage).asked f st
  rw [← hsent] at hr
  rw [fetch, adapt_run, Cache.query_run, Cache.start_of_lacks hlacks, Cache.finish_run_none, hr,
    ← hsent]
  exact ⟨_, rfl, rfl⟩

/-- Two queries that are looked up together and are not found are both sent. -/
theorem fetchPair_together_of_lacks (stage stage' : Stage) (hused : e.cache.enabled = true)
    (hs : s.Working e first last) (hpacing : s.pacing = .together) (hf : f.ttl ∈ e.lifetimes.all)
    (hg : g.ttl ∈ e.lifetimes.all)
    (hlacks : st.Lacks (e.cache.keyFor f)) (hlacks' : st.Lacks (e.cache.keyFor g)) {r r' : QueryResult}
    (hr : s.backend.answer st.sent f.query = .ok r)
    (hr' : s.backend.answer (st.sent ++ [f.query]) g.query = .ok r') :
    ∃ st', (e.fetchPair s stage stage' f g).run.run st = (.ok (r, r'), st') ∧
      st'.sent = st.sent ++ [f.query, g.query] ∧
      ∀ key, st.Lacks key → key ≠ e.cache.keyFor f → key ≠ e.cache.keyFor g → st'.Lacks key := by
  obtain ⟨st', hrun, hst'⟩ := Cache.queryPair_together_of_lacks (s.timing stage) (s.timing stage')
    hused (hs.writes stage _ hf) (hs.writes stage' _ hg) hlacks hlacks' hr hr'
  refine ⟨st', ?_, hst'⟩
  rw [fetchPair, adapt_run, hpacing, hrun]
  rfl

section

variable (hused : e.cache.enabled = true) (hs : s.Working e first last)
  (hs' : ∀ stage, Moment.Reads first last (s'.timing stage).asked)

include hused hs hs'

theorem fetch_repeats (hf : f.ttl ∈ e.lifetimes.all) :
    Repeats first last 1 begun (fun _ r r' => r' = r) (e.fetch s stage f) (e.fetch s' stage f) := by
  intro st hst _
  obtain ⟨hlearns, hknown⟩ :=
    Cache.query_learns hused hs.storable (hs.reads stage) (hs.writes stage _ hf) hst
  refine ⟨hlearns, fun r hr => ⟨r, rfl, fun st₁ hst₁ hextends => ?_⟩⟩
  have hanswer := hextends _ _ (hknown r (adapt_eq_ok.mp hr))
  obtain ⟨st₂, hrun, hhits⟩ := Cache.query_replays hused s'.backend (hs' stage) hst₁ hanswer
  refine ⟨st₂, ?_, hhits⟩
  rw [fetch, adapt_run, hrun]
  rfl

/-- What was learned of two queries is enough to fetch the answers to both again, and also those to
the second in place of both. -/
theorem fetchPair_repeats (stage stage' : Stage) (hf : f.ttl ∈ e.lifetimes.all)
    (hg : g.ttl ∈ e.lifetimes.all)
    (hsame : e.cache.keyFor f = e.cache.keyFor g → f.query = g.query) {f' : Fetch}
    (hf' : f' = f ∨ f' = g) :
    Repeats first last 2 begun
      (fun sent found found' =>
        f' = f → FoundAgain (Cache.AnsweredAlike s.backend s.pacing begun sent)
          (e.cache.keyFor f = e.cache.keyFor g) found found')
      (e.fetchPair s stage stage' f g) (e.fetchPair s' stage stage' f' g) := by
  rintro st hst rfl
  obtain ⟨hlearns, hknown⟩ := Cache.queryPair_learns hused hs.storable (hs.reads stage)
    (hs.reads stage') (hs.writes stage _ hf) (hs.writes stage' _ hg) s.pacing hsame hst
  refine ⟨hlearns, fun found hfound => ?_⟩
  obtain ⟨r, hpair⟩ := hknown found (adapt_eq_ok.mp hfound)
  -- What is found first is what is known under the first key that is asked for again.
  obtain ⟨r', hr', hagain⟩ : ∃ r', CacheState.known last (e.cache.keyFor f')
      ((e.fetchPair s stage stage' f g).run.run st).2 = some r' ∧ (f' = f → r' = r) := by
    rcases hf' with rfl | rfl
    · exact ⟨r, hpair.first, fun _ => rfl⟩
    · refine ⟨found.2, hpair.second, fun h => ?_⟩
      subst h
      exact Option.some.inj (hpair.second.symm.trans hpair.first)
  refine ⟨(r', found.2), fun h => ?_, fun st₁ hst₁ hextends => ?_⟩
  · rw [hagain h]
    refine ⟨rfl, hpair.own, fun hkeys => ?_, hpair.alike⟩
    exact Option.some.inj (hpair.first.symm.trans (hkeys ▸ hpair.second))
  · obtain ⟨st₂, hrun, hhits⟩ := Cache.queryPair_replays hused s'.backend (hs' stage) (hs' stage')
      s'.pacing hst₁ (hextends _ _ hr') (hextends _ _ hpair.second)
    refine ⟨st₂, ?_, hhits⟩
    rw [fetchPair, adapt_run, hrun]
    rfl

/-! ## §3 Requests -/

theorem resolve_repeats (t : TableSchema) (direction : Direction) (target : Date) :
    Repeats first last 1 begun (fun _ d d' => d' = d) (e.resolve s t direction target)
      (e.resolve s' t direction target) :=
  (fetch_repeats hused hs hs' e.lifetimes.snapshot_mem_all).map fun _ _ _ _ h =>
    congrArg (Resolution.snapshot target) h

/-- The second of two days has its snapshot again, and so has the first, unless it is the same day. -/
theorem resolvePair_repeats (t : TableSchema) (current comparison : Date) :
    Repeats first last 2 begun
      (fun sent => FoundAgain (Cache.AnsweredAlike s.backend s.pacing begun sent)
        (current = comparison))
      (e.resolvePair s t current comparison) (e.resolvePair s' t current comparison) := by
  have httl := e.lifetimes.snapshot_mem_all
  -- The look-ups of two days share a key only if the days are the same.
  have hdays (h : e.cache.keyFor (e.resolutionOf t .backward current) =
      e.cache.keyFor (e.resolutionOf t .backward comparison)) : current = comparison :=
    date_eq_of_keyFor_eq ["snapshot", t.name, "backward"] rfl rfl h
  refine (fetchPair_repeats hused hs hs' .snapshot .comparedSnapshot httl httl (fun h => ?_)
    (Or.inl rfl)).map fun sent found found' _ h => ?_
  · rw [hdays h]
  · obtain ⟨hsecond, hown, hshared, halike⟩ := h rfl
    refine ⟨congrArg (Resolution.snapshot comparison) hsecond, fun hdiffer => ?_, fun hsame => ?_,
      fun hb => congrArg (Resolution.snapshot current) (halike hb)⟩
    · exact congrArg (Resolution.snapshot current) (hown (mt hdays hdiffer))
    · subst hsame
      exact congrArg (Resolution.snapshot current) (hshared rfl)

/-- A report on two snapshots, each with a key of its own. -/
theorem reportPair_repeats (fetchAt : Date → Fetch)
    (hf : ∀ d, (fetchAt d).ttl ∈ e.lifetimes.all)
    (hkeys : ∀ d d', e.cache.keyFor (fetchAt d) = e.cache.keyFor (fetchAt d') → d = d')
    (report : QueryResult × QueryResult → β) {alike same : Prop} {days days' : Date × Date}
    (hdays : FoundAgain alike same days days') :
    Repeats first last 2 begun
      (fun sent b b' => alike → Cache.AnsweredAlike s.backend s.pacing begun sent → b' = b)
      (do
        let found ← e.fetchPair s .figures .comparedFigures (fetchAt days.1) (fetchAt days.2)
        return report found)
      (do
        let found ← e.fetchPair s' .figures .comparedFigures (fetchAt days'.1) (fetchAt days'.2)
        return report found) := by
  have hsame (h : e.cache.keyFor (fetchAt days.1) = e.cache.keyFor (fetchAt days.2)) :
      (fetchAt days.1).query = (fetchAt days.2).query := by
    rw [hkeys _ _ h]
  -- The first snapshot is again its own or the one that both days have.
  have hfirst : fetchAt days'.1 = fetchAt days.1 ∨ fetchAt days'.1 = fetchAt days.2 := by
    by_cases h : same
    · exact Or.inr (congrArg fetchAt (hdays.shared h))
    · exact Or.inl (congrArg fetchAt (hdays.own h))
  rw [hdays.second]
  refine (fetchPair_repeats hused hs hs' .figures .comparedFigures (hf _) (hf _) hsame hfirst).map
    fun sent found found' _ h hdaysAlike halike => congrArg report ?_
  have hagain := h (congrArg fetchAt (hdays.alike hdaysAlike))
  exact Prod.ext (hagain.alike halike) hagain.second

theorem breakdownAt_repeats (plan : BreakdownPlan) {alike same : Prop} {days days' : Date × Date}
    (hdays : FoundAgain alike same days days') :
    Repeats first last 2 begun
      (fun sent rows rows' =>
        alike → Cache.AnsweredAlike s.backend s.pacing begun sent → rows' = rows)
      (e.breakdownAt s plan days.1 days.2) (e.breakdownAt s' plan days'.1 days'.2) := by
  refine reportPair_repeats hused hs hs' (e.breakdownFetch plan)
    (fun _ => e.lifetimes.aggregates_mem_all) (fun d d' h => ?_)
    (fun found => Breakdown.rows plan.spec (plan.groups found.1) (plan.groups found.2)) hdays
  exact date_eq_of_keyFor_eq ["grouped", plan.table.name, plan.groupBy] rfl rfl h

theorem statCardAt_repeats (plan : StatCardPlan) {alike same : Prop} {days days' : Date × Date}
    (hdays : FoundAgain alike same days days') :
    Repeats first last 2 begun
      (fun sent metrics metrics' =>
        alike → Cache.AnsweredAlike s.backend s.pacing begun sent → metrics' = metrics)
      (e.statCardAt s plan days.1 days.2) (e.statCardAt s' plan days'.1 days'.2) := by
  refine reportPair_repeats hused hs hs' (e.statCardFetch plan)
    (fun _ => e.lifetimes.aggregates_mem_all) (fun d d' h => ?_)
    (fun found => StatMetric.ofFigures plan.spec (plan.figures found.1) (plan.figures found.2)) hdays
  exact date_eq_of_keyFor_eq ["stat", plan.table.name] rfl rfl h

/-- A report on two days, from the snapshots of both. -/
theorem comparison_repeats (t : TableSchema) (asOf target : Date)
    {reportAt reportAt' : Date → Date → EngineM Id α}
    (hreport : ∀ {begun : List Query} {alike same : Prop} {days days' : Date × Date},
      FoundAgain alike same days days' →
        Repeats first last 2 begun
          (fun sent a a' => alike → Cache.AnsweredAlike s.backend s.pacing begun sent → a' = a)
          (reportAt days.1 days.2) (reportAt' days'.1 days'.2))
    (payload : α → Payload) (ttl : Nat) :
    Repeats first last (2 + 2) begun
      (fun sent answer answer' =>
        Cache.AnsweredAlike s.backend s.pacing begun sent → answer' = answer)
      (do
        let days ← e.resolvePair s t asOf target
        let a ← reportAt days.1 days.2
        return (⟨payload a, ⟨t.name, asOf, some days.1, some days.2, ttl, 0⟩⟩ : Answer))
      (do
        let days ← e.resolvePair s' t asOf target
        let a ← reportAt' days.1 days.2
        return (⟨payload a, ⟨t.name, asOf, some days.1, some days.2, ttl, 0⟩⟩ : Answer)) := by
  refine (resolvePair_repeats hused hs hs' t asOf target).bind fun sent days days' hsent hdays => ?_
  refine (hreport hdays).map fun log a a' hlog ha halike => ?_
  -- What was sent for the snapshots and for the figures are two stretches of what was sent in all.
  have hdaysAlike := halike.mono List.prefix_rfl hlog
  rw [ha hdaysAlike (halike.mono hsent List.prefix_rfl), hdays.alike hdaysAlike, hdays.second]

/-- A report on the snapshot of one day. -/
theorem report_repeats (t : TableSchema) (direction : Direction) (asOf : Date)
    (fetchAt : Date → Fetch) (hf : ∀ d, (fetchAt d).ttl ∈ e.lifetimes.all)
    (report : Date → QueryResult → α) (payload : α → Payload) (ttl : Nat) :
    Repeats first last (1 + 1) begun (fun _ answer answer' => answer' = answer)
      (do
        let d ← e.resolve s t direction asOf
        let a ← (do return report d (← e.fetch s .figures (fetchAt d)))
        return (⟨payload a, ⟨t.name, asOf, some d, none, ttl, 0⟩⟩ : Answer))
      (do
        let d ← e.resolve s' t direction asOf
        let a ← (do return report d (← e.fetch s' .figures (fetchAt d)))
        return (⟨payload a, ⟨t.name, asOf, some d, none, ttl, 0⟩⟩ : Answer)) := by
  refine (resolve_repeats hused hs hs' t direction asOf).bind fun sent d d' _ hd => ?_
  rw [hd]
  have hreport : Repeats first last 1 sent (fun _ a a' => a' = a)
      (do return report d (← e.fetch s .figures (fetchAt d)))
      (do return report d (← e.fetch s' .figures (fetchAt d))) :=
    (fetch_repeats hused hs hs' (hf d)).map fun _ r r' _ hr => congrArg (report d) hr
  refine hreport.map fun _ a a' _ ha => ?_
  rw [ha]

/-- A request of any kind has the same answer again when it is about the same days, unless two equal
queries that were looked up together were not answered alike. -/
theorem answer_repeats {r : Request} (hdays : r.SameDays s.today s'.today) :
    Repeats first last (2 * r.periods) begun
      (fun sent a a' =>
        r.periods = 1 ∨ Cache.AnsweredAlike s.backend s.pacing begun sent → a' = a)
      (e.answer s r) (e.answer s' r) := by
  -- Only the two kinds that compare periods look queries up together. The others repeat outright.
  cases r with
  | breakdown r =>
    refine .check rfl fun plan => .check hdays fun days => ?_
    refine (comparison_repeats hused hs hs' plan.table days.1 days.2
      (breakdownAt_repeats hused hs hs' plan) .breakdown e.lifetimes.aggregates).imp
        fun sent a a' h hr => h (hr.resolve_left (Nat.succ_ne_self 1))
  | statCard r =>
    refine .check rfl fun plan => .check hdays fun days => ?_
    refine (comparison_repeats hused hs hs' plan.table days.1 days.2
      (statCardAt_repeats hused hs hs' plan) .statCard e.lifetimes.aggregates).imp
        fun sent a a' h hr => h (hr.resolve_left (Nat.succ_ne_self 1))
  | history r =>
    refine .check rfl fun plan => Repeats.imp ?_ fun sent a a' (h : a' = a) _ => h
    rw [show r.asOf.getD s'.today = r.asOf.getD s.today from hdays]
    exact report_repeats hused hs hs' plan.table .backward (r.asOf.getD s.today)
      (e.historyFetch plan) (fun _ => e.lifetimes.aggregates_mem_all)
      (fun _ found => HistorySeries.ofSnapshots plan.spec (found.groupsByDate "snapshot"))
      .history e.lifetimes.aggregates
  | maturity r =>
    refine .check rfl fun plan => Repeats.imp ?_ fun sent a a' (h : a' = a) _ => h
    rw [show r.asOf.getD s'.today = r.asOf.getD s.today from hdays]
    exact report_repeats hused hs hs' plan.table .forward (r.asOf.getD s.today)
      (e.maturityFetch plan) (fun _ => e.lifetimes.aggregates_mem_all)
      (fun _ found => MaturitySeries.ofMonths plan.spec (found.groupsByDate "month"))
      .maturity e.lifetimes.aggregates
  | rows r =>
    refine .check rfl fun plan => Repeats.imp ?_ fun sent a a' (h : a' = a) _ => h
    rw [show r.asOf.getD s'.today = r.asOf.getD s.today from hdays]
    exact report_repeats hused hs hs' plan.table .backward (r.asOf.getD s.today)
      (fun d => fetchOf (plan.select d) none e.lifetimes.rows) (fun _ => e.lifetimes.rows_mem_all)
      (RowsPage.ofResult plan) .rows e.lifetimes.rows
  | distinct r =>
    refine .check rfl fun plan => Repeats.imp ?_ fun sent a a' (h : a' = a) _ => h
    rw [show r.asOf.getD s'.today = r.asOf.getD s.today from hdays]
    exact report_repeats hused hs hs' plan.table .backward (r.asOf.getD s.today)
      (fun d => fetchOf (plan.select d) none e.lifetimes.distinct)
      (fun _ => e.lifetimes.distinct_mem_all) (fun _ found => DistinctValues.ofResult plan found)
      .distinct e.lifetimes.distinct

end

/-! ## §4 Runs -/

/-- Requests one after the other, each in its own surroundings. -/
def handleAll (e : Engine) (requests : List (Surroundings Id × Request)) :
    CacheM Id (List (Option Envelope)) :=
  requests.mapM fun x => e.handle x.1 x.2

/-- Whatever comes of a request, nothing that is known is lost. -/
theorem handle_learns (hused : e.cache.enabled = true) (hs : s.Working e first last)
    (hst : st.Steady first last) (r : Request) :
    st.Learns first last ((e.handle s r).run st).2 := by
  rw [handle_run]
  exact (answer_repeats hused hs hs.reads (.refl s.today r) st hst rfl).1

theorem handleAll_learns (hused : e.cache.enabled = true)
    {requests : List (Surroundings Id × Request)}
    (hrequests : ∀ x ∈ requests, x.1.Working e first last) (hst : st.Steady first last) :
    st.Learns first last ((e.handleAll requests).run st).2 := by
  induction requests generalizing st with
  | nil => exact .refl hst
  | cons x requests ih =>
    obtain ⟨hx, hrest⟩ := List.forall_mem_cons.mp hrequests
    have hlearns := handle_learns hused hx hst x.2
    -- The other requests start from what the first one left behind.
    have hrun : ((e.handleAll (x :: requests)).run st).2 =
        ((e.handleAll requests).run ((e.handle x.1 x.2).run st).2).2 := by
      rw [handleAll, List.mapM_cons]
      rfl
    rw [hrun]
    exact hlearns.trans (ih hrest hlearns.steady)

def sizesByDesk : BreakdownRequest :=
  ⟨.ofMeasure "trades" (.sum "size"), "desk", [], ⟨some .epoch, none, some .epoch⟩⟩

def sizesPlan : BreakdownPlan :=
  ⟨trades, sizesByDesk.spec, "desk", [], []⟩

def firstLookup : Fetch :=
  tradesEngine.resolutionOf trades .backward .epoch

def firstSizes : Fetch :=
  tradesEngine.breakdownFetch sizesPlan .epoch

/-- A number of queries as the size of one desk. -/
def countedRecords (n : Nat) : QueryResult :=
  .ofRows [⟨"group_key", .string, false⟩, ⟨"value", .natural, false⟩] [[.text "FX", .ofNat n]] 1

/-- The rows of a desk whose sizes are such numbers. -/
def countedRows (n before : Nat) : List (BreakdownRow Binary64) :=
  Breakdown.rows sizesPlan.spec (sizesPlan.groups (countedRecords n))
    (sizesPlan.groups (countedRecords before))

def countingSurroundings (count : List Query → Query → Nat) (now : Nat) : Surroundings Id where
  backend := ⟨"counting", fun sent q => .ok (countedRecords (count sent q)), .ok ()⟩
  timing _ := ⟨Moment.calm now, Moment.calm (now + 7)⟩
  pacing := .together
  today := .epoch
  began := now
  ended := now + 15
  complaint _ := "expected value at line 1 column 1"

theorem storable_countedRecords (n : Nat) : (countedRecords n).Storable := by
  have hone : 1 < UInt64.size := by decide
  refine ⟨?_, hone, hone⟩
  simp only [countedRecords, QueryResult.ofRows, List.forall_mem_cons, List.not_mem_nil,
    false_implies, implies_true, and_true]
  exact ⟨.text "FX", .ofNat n⟩

theorem working_counting (count : List Query → Query → Nat) {now : Nat} (h : now ≤ 2000) :
    (countingSurroundings count now).Working tradesEngine 0 3000 := by
  refine Surroundings.working_of_calm (fun _ => ⟨now, now + 7, rfl, by omega, by omega⟩) (by decide)
    fun sent q r hr => ?_
  cases hr
  exact storable_countedRecords _

theorem firstSizes_ne_firstLookup :
    tradesEngine.cache.keyFor firstSizes ≠ tradesEngine.cache.keyFor firstLookup := by
  intro h
  have htable : tradesEngine.tables.table "trades" = .ok trades := rfl
  have hprepare : BreakdownPlan.prepare tradesEngine.tables sizesByDesk.spec "desk" [] =
      .ok sizesPlan := rfl
  have htrades : trades.Checked := (Statement.registered_trades.of_table htable).2
  have hplan : sizesPlan.Prepared tradesEngine.tables := (BreakdownPlan.prepared hprepare).1
  have hkey := eq_of_keyFor_eq (hplan.isPlain_key Statement.registered_trades .epoch)
    (Resolution.isPlain_key htrades .backward .epoch) h
  cases hkey

/-- The answer with such rows, when the work took some time. -/
def countedAnswer (n before elapsed : Nat) : Answer :=
  Answer.timed ⟨.breakdown (countedRows n before),
    ⟨"trades", .epoch, some .epoch, some .epoch, nanoseconds 300, 0⟩⟩ elapsed

/-- The answer is put together from what is found for the snapshots and then for the sizes. -/
theorem handle_sizesByDesk {s : Surroundings Id} {st st₁ st₂ : CacheState} {m m' n n' : Nat}
    (hlookups : (tradesEngine.fetchPair s .snapshot .comparedSnapshot firstLookup
      firstLookup).run.run st = (.ok (countedRecords m, countedRecords m'), st₁))
    (hsizes : (tradesEngine.fetchPair s .figures .comparedFigures firstSizes firstSizes).run.run st₁ =
      (.ok (countedRecords n, countedRecords n'), st₂)) :
    (tradesEngine.handle s (.breakdown sizesByDesk)).run st =
      (some (.ok (countedAnswer n n' (s.ended.run - s.began.run))), st₂) := by
  have hplan : BreakdownPlan.prepare tradesEngine.tables sizesByDesk.spec sizesByDesk.groupBy
      sizesByDesk.filters = .ok sizesPlan := rfl
  have htargets : sizesByDesk.window.targets s.today = .ok (.epoch, .epoch) :=
    Window.targets_of_fixed rfl rfl (by decide)
  -- The two look-ups ask the same, as the day is compared with itself.
  have hdays : (tradesEngine.resolvePair s trades .epoch .epoch).run.run st =
      (.ok (.epoch, .epoch), st₁) := by
    have hpair : tradesEngine.resolvePair s trades .epoch .epoch = (do
        let found ← tradesEngine.fetchPair s .snapshot .comparedSnapshot firstLookup firstLookup
        return (Resolution.snapshot .epoch found.1, Resolution.snapshot .epoch found.2)) := rfl
    rw [hpair, CacheM.run_bind, hlookups]
    rfl
  have hrows : (tradesEngine.breakdownAt s sizesPlan .epoch .epoch).run.run st₁ =
      (.ok (countedRows n n'), st₂) := by
    have hpair : tradesEngine.breakdownAt s sizesPlan .epoch .epoch = (do
        let found ← tradesEngine.fetchPair s .figures .comparedFigures firstSizes firstSizes
        return Breakdown.rows sizesPlan.spec (sizesPlan.groups found.1) (sizesPlan.groups found.2)) :=
      rfl
    rw [hpair, CacheM.run_bind, hsizes]
    rfl
  have htable : sizesPlan.table = trades := rfl
  have hanswer : (tradesEngine.answer s (.breakdown sizesByDesk)).run.run st =
      (.ok ⟨.breakdown (countedRows n n'),
        ⟨"trades", .epoch, some .epoch, some .epoch, nanoseconds 300, 0⟩⟩, st₂) := by
    simp only [answer, breakdown, hplan, htargets, check_ok, pure_bind, htable]
    rw [CacheM.run_bind, hdays]
    dsimp only
    rw [CacheM.run_bind, hrows]
    rfl
  rw [handle_run, hanswer]
  rfl

/-- Both queries of each pair are sent. -/
theorem counted_sent (count : List Query → Query → Nat) :
    let s := countingSurroundings count 0
    let lookup := firstLookup.query
    let sizes := firstSizes.query
    ∃ st₁ st₂,
      (tradesEngine.fetchPair s .snapshot .comparedSnapshot firstLookup firstLookup).run.run
        .initial =
          (.ok (countedRecords (count [] lookup), countedRecords (count [lookup] lookup)), st₁) ∧
      (tradesEngine.fetchPair s .figures .comparedFigures firstSizes firstSizes).run.run st₁ =
        (.ok (countedRecords (count [lookup, lookup] sizes),
          countedRecords (count [lookup, lookup, sizes] sizes)), st₂) := by
  intro s lookup sizes
  have hs : s.Working tradesEngine 0 3000 := working_counting count (Nat.zero_le _)
  have hlookup : firstLookup.ttl ∈ tradesEngine.lifetimes.all := Lifetimes.snapshot_mem_all _
  have hsizes : firstSizes.ttl ∈ tradesEngine.lifetimes.all := Lifetimes.aggregates_mem_all _
  have hempty (key : String) : CacheState.initial.Lacks key := nofun
  -- Both look-ups miss, as neither is stored when both are looked up.
  obtain ⟨st₁, hrun, hsent, hlacks⟩ := fetchPair_together_of_lacks .snapshot .comparedSnapshot rfl
    hs rfl hlookup hlookup (hempty _) (hempty _) rfl rfl
  -- What they leave behind is under another key than the sizes.
  have hlacks₁ := hlacks _ (hempty _) firstSizes_ne_firstLookup firstSizes_ne_firstLookup
  have hsent₁ : st₁.sent = [lookup, lookup] := hsent
  have hanswer : s.backend.answer st₁.sent sizes =
      .ok (countedRecords (count [lookup, lookup] sizes)) := by rw [hsent₁]; rfl
  have hanswer' : s.backend.answer (st₁.sent ++ [sizes]) sizes =
      .ok (countedRecords (count [lookup, lookup, sizes] sizes)) := by rw [hsent₁]; rfl
  obtain ⟨st₂, hrun', -, -⟩ := fetchPair_together_of_lacks .figures .comparedFigures rfl hs rfl
    hsizes hsizes hlacks₁ hlacks₁ hanswer hanswer'
  exact ⟨st₁, st₂, hrun, hrun'⟩

/-- How many queries were sent before. -/
def sentBefore (sent : List Query) (_ : Query) : Nat :=
  sent.length

/-- How many other queries were sent before. -/
def othersBefore (sent : List Query) (q : Query) : Nat :=
  sent.countP (· ≠ q)

end Engine

end SnapshotAnalytics

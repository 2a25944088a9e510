import SnapshotAnalytics.Proofs.Cache.ReadThrough
import SnapshotAnalytics.Proofs.Json.RoundTrip
import Mathlib.Data.List.Forall2

/-!
# Transparency of the cache

Whatever happens to a cache and its store, a query is answered as the backend would answer it: with
answers found or not, expired, unreadable or removed, with reads and writes that fail, through a
cache that is used or bypassed. This asks that a key stands for one query only, and that an answer that
can be read from its own text is read as itself. It has one exception: an answer that is to be kept
beyond the last time that there is crashes the write, and with it the query.

The invariant is `Faithful`: every entry that can be read is the answer to each query asked for under
its key. Single steps keep it, whether they crash or not, so runs of any length do.
-/

namespace SnapshotAnalytics

/-! ## §1 Runs -/

/-- What can be asked of a cache. -/
inductive CacheOperation where
  | query (timing : Timing Id) (f : Fetch)
  | queryPair (pacing : Cache.Pacing) (timing timing' : Timing Id) (f g : Fetch)
  | invalidate (t : Moment) (pattern : Option String)

/-- When an operation may store answers, and for how long. -/
def CacheOperation.writes : CacheOperation → List (Moment × Nat)
  | query timing f => [(timing.answered, f.ttl)]
  | queryPair _ timing timing' f g => [(timing.answered, f.ttl), (timing'.answered, g.ttl)]
  | invalidate _ _ => []

/-- What a cache replies. -/
inductive CacheReply where
  | answer (r : Except (Halt QueryError) QueryResult)
  | answers (r : Except (Halt QueryError) (QueryResult × QueryResult))
  | removed (count : Except StoreError Nat)

/-- The operation crashed. -/
def CacheReply.IsCrash : CacheReply → Prop
  | answer r => r = .error .crash
  | answers r => r = .error .crash
  | removed _ => False

/-- An operation and the cache it is asked of. Several caches may share the store. -/
structure CacheStep where
  cache : Cache
  operation : CacheOperation

/-- A query crashes: nothing is found for it, the backend has an answer, and to store it crashes. -/
def Cache.Crashes (c : Cache) (answer : Query → Except QueryError QueryResult) (timing : Timing Id)
    (f : Fetch) (s : CacheState) : Prop :=
  ((c.start timing.asked f).run s).1 = none ∧ (∃ r, answer f.query = .ok r) ∧ c.enabled = true ∧
    timing.answered.crashes f.ttl = true

/-- The state in which the second one of two queries is looked up: the one behind the first query, or
the one behind the look-up of the first query. -/
def Cache.between (c : Cache) (b : Backend Id) (timing : Timing Id) (f : Fetch) (s : CacheState) :
    Cache.Pacing → CacheState
  | .inTurn => ((c.query b timing f).run.run s).2
  | .together => ((c.start timing.asked f).run s).2

namespace CacheStep

/-- The queries of a step, each with the full key of its answer. -/
def asks (step : CacheStep) : List (String × Query) :=
  match step.operation with
  | .query _ f => [(step.cache.keyFor f, f.query)]
  | .queryPair _ _ _ f g => [(step.cache.keyFor f, f.query), (step.cache.keyFor g, g.query)]
  | .invalidate _ _ => []

/-- When a step may store answers and for how long, if the cache is used. -/
def writes (step : CacheStep) : List (Moment × Nat) :=
  if step.cache.enabled then step.operation.writes else []

/-- Carry out a step. -/
def perform (b : Backend Id) (step : CacheStep) : CacheM Id CacheReply :=
  match step.operation with
  | .query timing f => return .answer (← (step.cache.query b timing f).run)
  | .queryPair pacing timing timing' f g =>
    return .answers (← (step.cache.queryPair b timing timing' pacing f g).run)
  | .invalidate t pattern => return .removed (← (step.cache.invalidate t pattern).run)

/-- Carry out steps one after the other. -/
def performAll (b : Backend Id) (steps : List CacheStep) : CacheM Id (List CacheReply) :=
  steps.mapM (perform b)

/-- The steps of a run, each with the state that it finds. -/
def withStates (b : Backend Id) : List CacheStep → CacheState → List (CacheStep × CacheState)
  | [], _ => []
  | step :: steps, s => (step, s) :: withStates b steps ((step.perform b).run s).2

/-- The reply to a step gives to every query the answer that the backend has for it. Of two queries
that belong together the first error is the answer. -/
def Truthful (answer : Query → Except QueryError QueryResult) (step : CacheStep)
    (reply : CacheReply) : Prop :=
  match step.operation, reply with
  | .query _ f, .answer r => r = (answer f.query).mapError .error
  | .queryPair _ _ _ f g, .answers r =>
    r = Except.mapError .error do
      let first ← answer f.query
      return (first, ← answer g.query)
  | .invalidate _ _, .removed _ => True
  | _, _ => False

/-- A query of the step crashes. The second one of two is of no matter behind an error. -/
def Crashes (answer : Query → Except QueryError QueryResult) (b : Backend Id) (step : CacheStep)
    (s : CacheState) : Prop :=
  match step.operation with
  | .query timing f => step.cache.Crashes answer timing f s
  | .queryPair pacing timing timing' f g =>
    step.cache.Crashes answer timing f s ∨ (∃ r, answer f.query = .ok r) ∧
      step.cache.Crashes answer timing' g (step.cache.between b timing f s pacing)
  | .invalidate _ _ => False

end CacheStep

/-! ## §2 The invariant -/

/-- A backend that answers a query the same way whenever it is asked. -/
def Backend.Answers (b : Backend Id) (answer : Query → Except QueryError QueryResult) : Prop :=
  ∀ sent q, b.answer sent q = answer q

/-- A key stands for one query, and the answers that can be read back are read as themselves. -/
structure Consistent (answer : Query → Except QueryError QueryResult)
    (asked : List (String × Query)) : Prop where
  sameQuery : ∀ x ∈ asked, ∀ y ∈ asked, x.1 = y.1 → x.2 = y.2
  readsBack : ∀ x ∈ asked, ∀ r r', answer x.2 = .ok r →
    QueryResult.decode? r.encode = some r' → r' = r

/-- Every entry that can be read is the answer to each query asked for under its key. -/
def Faithful (answer : Query → Except QueryError QueryResult) (asked : List (String × Query))
    (s : CacheState) : Prop :=
  ∀ e ∈ s.store.entries, ∀ r, QueryResult.decode? e.2.value = some r →
    ∀ x ∈ asked, x.1 = e.1 → answer x.2 = .ok r

namespace Faithful

variable {answer : Query → Except QueryError QueryResult} {asked : List (String × Query)}
  {s s' : CacheState}

/-- A store that holds nothing readable is faithful. -/
theorem of_unreadable (h : ∀ e ∈ s.store.entries, QueryResult.decode? e.2.value = none) :
    Faithful answer asked s := by
  intro e he r hr
  rw [h e he] at hr
  cases hr

/-- The invariant survives whatever brings no entries in. -/
theorem of_subset (hs : Faithful answer asked s)
    (hsub : ∀ e ∈ s'.store.entries, e ∈ s.store.entries) : Faithful answer asked s' :=
  fun e he => hs e (hsub e he)

end Faithful

/-! ## §3 Single queries -/

namespace Cache

variable {answer : Query → Except QueryError QueryResult} {asked : List (String × Query)}
  {b : Backend Id} {c : Cache} {t : Moment} {f g : Fetch} {s : CacheState}

theorem faithful_start (hs : Faithful answer asked s) :
    Faithful answer asked ((c.start t f).run s).2 :=
  hs.of_subset fun _ he => mem_of_mem_start he

/-- What is found for a query is its answer. -/
theorem answer_of_start (hs : Faithful answer asked s) (hf : (c.keyFor f, f.query) ∈ asked)
    {r : QueryResult} (hr : ((c.start t f).run s).1 = some r) : answer f.query = .ok r := by
  obtain ⟨stored, hmem, hdecode⟩ := mem_of_start hr
  exact hs _ hmem r hdecode _ hf rfl

/-- Storing the answer to a query keeps the invariant: any other query asked for under the same key is
the same query. -/
theorem faithful_save (hc : Consistent answer asked) (hs : Faithful answer asked s)
    (hf : (c.keyFor f, f.query) ∈ asked) {r : QueryResult} (hr : answer f.query = .ok r) :
    Faithful answer asked ((save t (c.keyFor f) f.ttl r).run s).2 := by
  intro e he r' hdecode x hx hkey
  -- The entry is the new one, which is read back as the answer, or it was there before.
  rcases mem_of_mem_save he with ⟨hek, hvalue⟩ | hold
  · have hsame : x.2 = f.query := hc.sameQuery x hx _ hf (hkey.trans hek)
    rw [hvalue] at hdecode
    have hback : r' = r := hc.readsBack _ hf r r' hr hdecode
    rw [hsame, hr, hback]
  · exact hs e hold r' hdecode x hx hkey

/-- What comes of a query for which an answer was found or not. -/
def outcome (c : Cache) (answer : Query → Except QueryError QueryResult) (answered : Moment)
    (f : Fetch) (found : Option QueryResult) : Except (Halt QueryError) QueryResult :=
  match answer f.query with
  | .error e => .error (.error e)
  | .ok r =>
    if found.isNone && c.enabled && answered.crashes f.ttl then .error .crash else .ok r

theorem outcome_of_crashes {timing : Timing Id} (h : c.Crashes answer timing f s) :
    c.outcome answer timing.answered f ((c.start timing.asked f).run s).1 = .error .crash := by
  obtain ⟨hnone, ⟨r, hr⟩, henabled, hcrash⟩ := h
  rw [outcome, hr, hnone, henabled, hcrash]
  rfl

theorem outcome_of_not_crashes {timing : Timing Id} (h : ¬ c.Crashes answer timing f s) :
    c.outcome answer timing.answered f ((c.start timing.asked f).run s).1 =
      (answer f.query).mapError .error := by
  rw [outcome]
  cases hr : answer f.query with
  | error e => rfl
  | ok r =>
    refine if_neg fun hcrash => h ?_
    simp only [Bool.and_eq_true, Option.isNone_iff_eq_none] at hcrash
    exact ⟨hcrash.1.1, ⟨r, hr⟩, hcrash.1.2, hcrash.2⟩

theorem finish_none (hb : b.Answers answer) :
    ((c.finish b t f none).run.run s).1 = c.outcome answer t f none := by
  rw [finish_run_none, hb, outcome]
  cases answer f.query with
  | error e => rfl
  | ok r => cases c.enabled <;> rfl

/-- The second half of a query gives the answer of the backend, given that what was found is that. -/
theorem finish_faithful (hb : b.Answers answer) (hc : Consistent answer asked)
    (hs : Faithful answer asked s) (hf : (c.keyFor f, f.query) ∈ asked) {found : Option QueryResult}
    (hfound : ∀ r, found = some r → answer f.query = .ok r) :
    ((c.finish b t f found).run.run s).1 = c.outcome answer t f found ∧
      Faithful answer asked ((c.finish b t f found).run.run s).2 := by
  cases found with
  | some r =>
    rw [finish_run_some, outcome, hfound r rfl]
    exact ⟨rfl, hs⟩
  | none =>
    refine ⟨finish_none hb, ?_⟩
    rw [finish_run_none, hb]
    cases hr : answer f.query with
    | error e => exact hs
    | ok r =>
      cases c.enabled with
      | false => exact hs
      | true =>
        -- That the query was sent is noted beside the store.
        have hsent : Faithful answer asked { s with sent := s.sent ++ [f.query] } := hs
        exact faithful_save hc hsent hf hr

theorem query_faithful (hb : b.Answers answer) (hc : Consistent answer asked)
    (hs : Faithful answer asked s) (hf : (c.keyFor f, f.query) ∈ asked) (timing : Timing Id) :
    ((c.query b timing f).run.run s).1 =
        c.outcome answer timing.answered f ((c.start timing.asked f).run s).1 ∧
      Faithful answer asked ((c.query b timing f).run.run s).2 := by
  rw [query_run]
  exact finish_faithful hb hc (faithful_start hs) hf fun _ hr => answer_of_start hs hf hr

/-- Two operations in a row, each of which gives a known result. The state behind them is that behind
the first one, if it fails, or that behind the second one. -/
theorem pair_run {ε α : Type} {R : CacheState → Prop} {x y : ExceptT ε (CacheM Id) α}
    {first second : Except ε α} (hx : (x.run.run s).1 = first ∧ R (x.run.run s).2)
    (hy : (y.run.run (x.run.run s).2).1 = second ∧ R (y.run.run (x.run.run s).2).2) :
    let pair : ExceptT ε (CacheM Id) (α × α) := do
      let r ← x
      return (r, ← y)
    (pair.run.run s).1 = (do
        let r ← first
        return (r, ← second)) ∧ R (pair.run.run s).2 := by
  intro pair
  obtain ⟨hfirst, hs'⟩ := hx
  -- The pair is two binds, each of which stops at an error.
  have hpair : pair.run.run s = (x >>= fun r => y >>= fun r' => pure (r, r')).run.run s := rfl
  rw [hpair, CacheM.run_bind]
  rcases hx : x.run.run s with ⟨e | r, s'⟩ <;> rw [hx] at hfirst hs' hy <;> subst hfirst
  · exact ⟨rfl, hs'⟩
  · obtain ⟨hsecond, hs''⟩ := hy
    simp only [CacheM.run_bind]
    rcases hy : y.run.run s' with ⟨e' | r', s''⟩ <;> rw [hy] at hsecond hs'' <;> subst hsecond
    · exact ⟨rfl, hs''⟩
    · exact ⟨rfl, hs''⟩

/-- Two queries that belong together give the answers of the backend, whether the second is looked up
before or after the first is sent. -/
theorem queryPair_faithful (hb : b.Answers answer) (hc : Consistent answer asked)
    (hs : Faithful answer asked s) (hf : (c.keyFor f, f.query) ∈ asked)
    (hg : (c.keyFor g, g.query) ∈ asked) (timing timing' : Timing Id) (pacing : Pacing) :
    ((c.queryPair b timing timing' pacing f g).run.run s).1 = (do
        let r ← c.outcome answer timing.answered f ((c.start timing.asked f).run s).1
        return (r, ← c.outcome answer timing'.answered g
          ((c.start timing'.asked g).run (c.between b timing f s pacing)).1)) ∧
      Faithful answer asked ((c.queryPair b timing timing' pacing f g).run.run s).2 := by
  cases pacing with
  | inTurn =>
    have hfirst := query_faithful hb hc hs hf timing
    exact pair_run hfirst (query_faithful hb hc hfirst.2 hg timing')
  | together =>
    -- The second query is looked up in the state that the first look-up leaves, and finished in the
    -- one that finishing the first query leaves.
    have hs₁ : Faithful answer asked ((c.start timing.asked f).run s).2 := faithful_start hs
    have hs₂ := faithful_start (c := c) (t := timing'.asked) (f := g) hs₁
    have hfirst := finish_faithful (t := timing.answered) hb hc hs₂ hf
      fun _ hr => answer_of_start (t := timing.asked) hs hf hr
    exact pair_run hfirst
      (finish_faithful hb hc hfirst.2 hg fun _ hr => answer_of_start hs₁ hg hr)

section

variable {timing timing' : Timing Id} {s' : CacheState}

/-- Behind a first query that does not crash there is a second one only if there is an answer. -/
theorem outcomes_of_crashes (h : c.Crashes answer timing f s ∨
      (∃ r, answer f.query = .ok r) ∧ c.Crashes answer timing' g s') :
    (do
      let r ← c.outcome answer timing.answered f ((c.start timing.asked f).run s).1
      return (r, ← c.outcome answer timing'.answered g ((c.start timing'.asked g).run s').1)) =
        .error .crash := by
  by_cases hfirst : c.Crashes answer timing f s
  · rw [outcome_of_crashes hfirst]
    rfl
  · obtain ⟨⟨r, hr⟩, hsecond⟩ := h.resolve_left hfirst
    rw [outcome_of_not_crashes hfirst, outcome_of_crashes hsecond, hr]
    rfl

theorem outcomes_of_not_crashes (h : ¬ (c.Crashes answer timing f s ∨
      (∃ r, answer f.query = .ok r) ∧ c.Crashes answer timing' g s')) :
    (do
      let r ← c.outcome answer timing.answered f ((c.start timing.asked f).run s).1
      return (r, ← c.outcome answer timing'.answered g ((c.start timing'.asked g).run s').1)) =
        Except.mapError .error do
          let r ← answer f.query
          return (r, ← answer g.query) := by
  rw [outcome_of_not_crashes fun hfirst => h (Or.inl hfirst)]
  cases hr : answer f.query with
  | error e => rfl
  | ok r =>
    rw [outcome_of_not_crashes fun hsecond => h (Or.inr ⟨⟨r, hr⟩, hsecond⟩)]
    cases answer g.query <;> rfl

end

end Cache

/-! ## §4 Runs of any length -/

namespace CacheStep

variable {answer : Query → Except QueryError QueryResult} {asked : List (String × Query)}
  {b : Backend Id} {s : CacheState}

/-- One step replies truthfully unless it crashes, and keeps the invariant. -/
theorem perform_faithful (hb : b.Answers answer) (hc : Consistent answer asked)
    (hs : Faithful answer asked s) {step : CacheStep} (hasked : ∀ x ∈ step.asks, x ∈ asked) :
    (step.Crashes answer b s → ((step.perform b).run s).1.IsCrash) ∧
      (¬ step.Crashes answer b s → Truthful answer step ((step.perform b).run s).1) ∧
        Faithful answer asked ((step.perform b).run s).2 := by
  obtain ⟨c, operation⟩ := step
  cases operation with
  | query timing f =>
    obtain ⟨hreply, hfaithful⟩ :=
      Cache.query_faithful (c := c) hb hc hs (hasked _ (List.mem_cons_self ..)) timing
    exact ⟨fun hcrash => hreply.trans (Cache.outcome_of_crashes hcrash),
      fun hcrash => hreply.trans (Cache.outcome_of_not_crashes hcrash), hfaithful⟩
  | queryPair pacing timing timing' f g =>
    have hf := hasked _ (List.mem_cons_self ..)
    have hg := hasked _ (List.mem_cons_of_mem _ (List.mem_cons_self ..))
    obtain ⟨hreply, hfaithful⟩ := Cache.queryPair_faithful (c := c) hb hc hs hf hg timing timing' pacing
    exact ⟨fun hcrash => hreply.trans (Cache.outcomes_of_crashes hcrash),
      fun hcrash => hreply.trans (Cache.outcomes_of_not_crashes hcrash), hfaithful⟩
  | invalidate t pattern =>
    exact ⟨False.elim, fun _ => trivial, hs.of_subset fun _ he => Cache.mem_of_mem_invalidate he⟩

/-- Only a write that is to be kept beyond the last time crashes. -/
theorem exists_write_of_crashes {step : CacheStep} (h : step.Crashes answer b s) :
    ∃ write ∈ step.writes, write.1.crashes write.2 = true := by
  obtain ⟨c, operation⟩ := step
  have hwrites (h : c.enabled = true) : CacheStep.writes ⟨c, operation⟩ = operation.writes := if_pos h
  cases operation with
  | query timing f =>
    obtain ⟨-, -, henabled, hcrash⟩ := h
    rw [hwrites henabled]
    exact ⟨_, List.mem_cons_self, hcrash⟩
  | queryPair pacing timing timing' f g =>
    rcases h with ⟨-, -, henabled, hcrash⟩ | ⟨-, -, -, henabled, hcrash⟩ <;> rw [hwrites henabled]
    · exact ⟨_, List.mem_cons_self, hcrash⟩
    · exact ⟨_, List.mem_cons_of_mem _ List.mem_cons_self, hcrash⟩
  | invalidate t pattern => exact h.elim

/-- A run replies truthfully to each of its steps that does not crash. -/
theorem performAll_faithful (hb : b.Answers answer) (hc : Consistent answer asked)
    {steps : List CacheStep} (hasked : ∀ step ∈ steps, ∀ x ∈ step.asks, x ∈ asked)
    (hs : Faithful answer asked s) :
    List.Forall₂ (fun x reply => (x.1.Crashes answer b x.2 → reply.IsCrash) ∧
      (¬ x.1.Crashes answer b x.2 → Truthful answer x.1 reply))
      (withStates b steps s) ((performAll b steps).run s).1 := by
  -- The invariant is all that the remaining steps have to know of the state they start from.
  induction steps generalizing s with
  | nil => exact .nil
  | cons step steps ih =>
    obtain ⟨hcrash, htruthful, hs'⟩ :=
      perform_faithful hb hc hs (hasked step (List.mem_cons_self ..))
    have hrest := ih (fun step' h => hasked step' (List.mem_cons_of_mem _ h)) hs'
    rw [performAll, List.mapM_cons]
    exact .cons ⟨hcrash, htruthful⟩ hrest

theorem map_fst_withStates (b : Backend Id) (steps : List CacheStep) (s : CacheState) :
    (withStates b steps s).map (·.1) = steps := by
  induction steps generalizing s with
  | nil => rfl
  | cons step steps ih => rw [withStates, List.map_cons, ih]

/-- **Transparency**: from a store that is empty or holds nothing readable, and as long as a full key
stands for one query throughout the run, a step of a run either crashes, because the answer to a query
that is not found cannot be kept for as long as it should, or gives the answers of the backend. So when
nothing is to be kept beyond the last time, every query of the run is answered as the backend answers
it. -/
theorem replies_truthful (answer : Query → Except QueryError QueryResult) (b : Backend Id)
    (hb : b.Answers answer) (steps : List CacheStep) (s : CacheState)
    (hstart : ∀ e ∈ s.store.entries, QueryResult.decode? e.2.value = none)
    (hkeys : ∀ x ∈ steps.flatMap asks, ∀ y ∈ steps.flatMap asks, x.1 = y.1 → x.2 = y.2)
    (hread : ∀ x ∈ steps.flatMap asks, ∀ r r', answer x.2 = .ok r →
      QueryResult.decode? r.encode = some r' → r' = r) :
    let replies := ((performAll b steps).run s).1
    List.Forall₂ (fun x reply => (x.1.Crashes answer b x.2 → reply.IsCrash) ∧
        (¬ x.1.Crashes answer b x.2 → Truthful answer x.1 reply)) (withStates b steps s) replies ∧
      ((∀ write ∈ steps.flatMap writes, write.1.crashes write.2 = false) →
        List.Forall₂ (Truthful answer) steps replies) := by
  intro replies
  have hreplies := performAll_faithful hb ⟨hkeys, hread⟩
    (fun _ hstep _ hx => List.mem_flatMap.mpr ⟨_, hstep, hx⟩) (.of_unreadable hstart)
  refine ⟨hreplies, fun hfits => ?_⟩
  have hnone : ∀ x ∈ withStates b steps s, ¬ x.1.Crashes answer b x.2 := by
    intro x hx hcrash
    obtain ⟨write, hwrite, hover⟩ := exists_write_of_crashes hcrash
    have hstep : x.1 ∈ steps := by
      rw [← map_fst_withStates b steps s]
      exact List.mem_map_of_mem hx
    exact Bool.false_ne_true ((hfits write (List.mem_flatMap.mpr ⟨_, hstep, hwrite⟩)).symm.trans hover)
  rw [← map_fst_withStates b steps s, List.forall₂_map_left_iff]
  exact ((List.forall₂_and_left _ _).mpr ⟨hnone, hreplies⟩).imp fun _ _ h => h.2.2 h.1

/-! A run over a store with an unreadable entry: a write that fails, a write, a hit, two queries of
which the second has no answer, a bypassed cache, a removal, an entry that has expired, and an answer
that cannot be kept for as long as it should. -/

/-- One table is known; every other query is refused. -/
def deskBackend : Backend Id where
  name := "desks"
  answer := fun _ q =>
    if q.sql = "SELECT desk" then
      .ok (.ofRecords ["desk"] [[("desk", .text "EQ")]])
    else
      .error (.execution "no such table")
  health := .ok ()

def desksFetch (seconds : Nat) : Fetch :=
  ⟨⟨"SELECT desk", []⟩, some "desks", nanoseconds seconds⟩

/-- A query that is looked up at some second and whose answer arrives at the next one. -/
def deskTiming (second : Nat) (writeFault : Option String) : Timing Id :=
  ⟨.calm (nanoseconds second), { Moment.calm (nanoseconds (second + 1)) with writeFault }⟩

/-- The run. -/
def deskSteps : List CacheStep :=
  let other : Fetch := ⟨⟨"SELECT other", [⟨"p0_0", .string, "EQ"⟩]⟩, none, nanoseconds 60⟩
  [⟨⟨"v", true⟩, .query (deskTiming 0 (some "refused")) (desksFetch 90)⟩,
    ⟨⟨"v", true⟩, .query (deskTiming 10 none) (desksFetch 90)⟩,
    ⟨⟨"v", true⟩, .query (deskTiming 20 none) (desksFetch 90)⟩,
    ⟨⟨"v", true⟩, .queryPair .together (deskTiming 30 none) (deskTiming 31 none) (desksFetch 90) other⟩,
    ⟨⟨"v", false⟩, .query (deskTiming 40 none) (desksFetch 90)⟩,
    ⟨⟨"v", true⟩, .invalidate (.calm (nanoseconds 50)) (some "q:*")⟩,
    ⟨⟨"v", true⟩, .query (deskTiming 200 none) (desksFetch 90)⟩]

/-- The store of the run. -/
def deskState : CacheState :=
  ⟨⟨[("v:desks", ⟨"not json", nanoseconds 100⟩)], 0⟩, .zero, []⟩

/-- The one answer of the backend is read from its text as itself. -/
theorem decode?_encode_desks :
    let desks := QueryResult.ofRecords ["desk"] [[("desk", .text "EQ")]]
    QueryResult.decode? desks.encode = some desks := by
  intro desks
  have hreadable : desks.toJson.Readable 3 := by
    have hcount := Json.Number.readsBack_natural
    exact ⟨⟨⟨⟨trivial, trivial, trivial, trivial⟩, trivial⟩, ⟨⟨trivial, trivial⟩, trivial⟩,
      hcount _, hcount _, trivial⟩, by decide⟩
  rw [QueryResult.decode?, QueryResult.encode, Json.ofText?_render hreadable (by decide)]
  rfl

theorem decode?_deskState :
    ∀ e ∈ deskState.store.entries, QueryResult.decode? e.2.value = none := by
  intro e he
  rw [List.mem_singleton.mp he, ← Option.isNone_iff_eq_none]
  decide +kernel

/-- The only answer is that of the known table; whatever else is asked has none. -/
theorem readsBack_deskBackend (q : Query) (r r' : QueryResult)
    (hr : deskBackend.answer [] q = .ok r) (hr' : QueryResult.decode? r.encode = some r') : r' = r := by
  by_cases hsql : q.sql = "SELECT desk"
  · simp only [deskBackend, if_pos hsql] at hr
    obtain rfl := Except.ok.inj hr
    exact (Option.some.inj (decode?_encode_desks.symm.trans hr')).symm
  · simp only [deskBackend, if_neg hsql] at hr
    cases hr

theorem replies_truthful_desks :
    List.Forall₂ (Truthful (deskBackend.answer [])) deskSteps
      ((performAll deskBackend deskSteps).run deskState).1 :=
  (replies_truthful (deskBackend.answer []) deskBackend (fun _ _ => rfl) deskSteps deskState
    decode?_deskState (by decide +kernel) fun x _ => readsBack_deskBackend x.2).2 (by decide +kernel)

/-- A query whose answer is to be kept for as long as a lifetime of whole seconds can be: the backend
has the answer, and the query crashes. -/
theorem query_crashes :
    let step : CacheStep := ⟨⟨"v", true⟩, .query (deskTiming 1 none) (desksFetch 9223372036854775807)⟩
    ¬ Truthful (deskBackend.answer []) step ((step.perform deskBackend).run .initial).1 := by
  intro step htruthful
  have hcrash : ((step.perform deskBackend).run .initial).1 = .answer (.error .crash) := rfl
  rw [hcrash] at htruthful
  cases htruthful

end CacheStep

end SnapshotAnalytics

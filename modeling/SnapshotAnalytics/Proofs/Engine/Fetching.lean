import SnapshotAnalytics.Engine.Basic
import SnapshotAnalytics.Proofs.Cache.Holding
import SnapshotAnalytics.Proofs.Cache.KeyText
import SnapshotAnalytics.Proofs.Cache.Transparency

/-!
# Fetching through the cache

What an engine fetches is what the backend answers, as long as the store is faithful and no write
crashes. Errors of the backend are passed on, and nothing else ends a fetch early.
-/

namespace SnapshotAnalytics

/-- All lifetimes that are used. -/
def Lifetimes.all (l : Lifetimes) : List Nat :=
  [l.rows, l.aggregates, l.distinct, l.snapshot]

namespace Lifetimes

variable (l : Lifetimes)

theorem rows_mem_all : l.rows ∈ l.all := by simp [all]

theorem aggregates_mem_all : l.aggregates ∈ l.all := by simp [all]

theorem distinct_mem_all : l.distinct ∈ l.all := by simp [all]

theorem snapshot_mem_all : l.snapshot ∈ l.all := by simp [all]

end Lifetimes

/-- Surroundings in which nothing fails and no time passes. -/
def Surroundings.calm (backend : Backend Id) (pacing : Cache.Pacing) (today : Date) :
    Surroundings Id where
  backend := backend
  timing _ := ⟨Moment.calm 0, Moment.calm 0⟩
  pacing := pacing
  today := today
  began := (0 : Nat)
  ended := (0 : Nat)
  complaint _ := "expected value at line 1 column 1"

/-- What comes of a request: its answer with the time that the work took, its error, or nothing. -/
def Surroundings.envelope (s : Surroundings Id) : Except (Halt AnalyticsError) Answer → Option Envelope
  | .ok answer => some (.ok (answer.timed (s.ended.run - s.began.run)))
  | .error (.error err) => some (.error err)
  | .error .crash => none

theorem Surroundings.envelope_eq_none {s : Surroundings Id}
    {result : Except (Halt AnalyticsError) Answer} :
    s.envelope result = none ↔ result = .error .crash := by
  rcases result with (_ | _) | _ <;> simp [envelope]

theorem Surroundings.envelope_eq_error {s : Surroundings Id}
    {result : Except (Halt AnalyticsError) Answer} {err : AnalyticsError} :
    s.envelope result = some (.error err) ↔ result = .error (.error err) := by
  rcases result with (_ | _) | _ <;> simp [envelope]

/-- An error of the backend for one of the given queries, passed on. -/
def Backend.Refuses (b : Backend Id) (queries : List Query) : AnalyticsError → Prop
  | .query cause => b.FailsOn queries cause
  | _ => False

namespace Engine

/-- At some stage of a request a write would crash. -/
def MayCrash (e : Engine) (s : Surroundings Id) : Prop :=
  e.cache.enabled = true ∧
    ∃ stage, ∃ ttl ∈ e.lifetimes.all, Moment.crashes (s.timing stage).answered ttl = true

/-- How work with the given queries ends early: the backend refuses one of them, or a write crashes. -/
def Halts (e : Engine) (s : Surroundings Id) (queries : List Query) : Halt AnalyticsError → Prop
  | .error err => s.backend.Refuses queries err
  | .crash => e.MayCrash s

variable {answer : Query → Except QueryError QueryResult} {asked : List (String × Query)}
  {e : Engine} {s : Surroundings Id} {stage stage' : Stage} {st : CacheState}

/-! ## §1 Checks and requests -/

theorem check_ok {α : Type} (a : α) : check (m := Id) (.ok a) = pure a :=
  rfl

/-- A check leaves everything as it is. -/
theorem check_yields {α β : Type} {allowed : String → QueryResult → Prop} {P : β → Prop}
    {E : Halt AnalyticsError → Prop} {c : Except AnalyticsError α} {k : α → EngineM Id β}
    (hE : ∀ err, c = .error err → E (.error err))
    (hk : ∀ a, c = .ok a → CacheM.Yields allowed P E (k a)) :
    CacheM.Yields allowed P E (check c >>= k) := by
  cases c with
  | error err => exact fun st hst => ⟨hst, hE err rfl⟩
  | ok a => exact hk a rfl

/-- Another wording of the errors leaves the state as it is. -/
theorem adapt_run {ε ε' α : Type} (f : ε → ε') (x : ExceptT ε (CacheM Id) α) (st : CacheState) :
    (ExceptT.adapt f x).run.run st = ((x.run.run st).1.mapError f, (x.run.run st).2) :=
  rfl

theorem adapt_eq_ok {ε ε' α : Type} {f : ε → ε'} {x : ExceptT ε (CacheM Id) α} {a : α} :
    ((ExceptT.adapt f x).run.run st).1 = .ok a ↔ (x.run.run st).1 = .ok a := by
  rw [adapt_run]
  cases (x.run.run st).1 <;> simp [Except.mapError]

/-- An envelope is made from the answer, and the state is that of the answer. -/
theorem handle_run (e : Engine) (s : Surroundings Id) (r : Request) (st : CacheState) :
    (e.handle s r).run st =
      (s.envelope ((e.answer s r).run.run st).1, ((e.answer s r).run.run st).2) := by
  -- The time at which the work begins is found out first, and that leaves the state as it is.
  have hrun : (e.handle s r).run st = (do
      match ← (e.answer s r).run with
      | .ok answer => return some (.ok (answer.timed (s.ended.run - s.began.run)))
      | .error (.error mistake) => return some (.error mistake)
      | .error .crash => return none : CacheM Id (Option Envelope)).run st := rfl
  rw [hrun, StateT.run_bind]
  rcases (e.answer s r).run.run st with ⟨(_ | _) | answer, st'⟩ <;> rfl

theorem handleText_of_read {text : String} {r : Request} (h : Request.read? text = some r)
    (e : Engine) (s : Surroundings Id) (st : CacheState) :
    (e.handleText s text).run st =
      (s.envelope ((e.answer s r).run.run st).1, ((e.answer s r).run.run st).2) := by
  rw [handleText, h]
  exact e.handle_run s r st

/-- A text that is no request is answered by a complaint about it. -/
theorem handleText_of_unreadable {text : String} (h : Request.read? text = none) (e : Engine)
    (s : Surroundings Id) (st : CacheState) :
    (e.handleText s text).run st = (some (.error (.unreadableRequest (s.complaint text))), st) := by
  rw [handleText, h]
  rfl

/-! ## §2 Fetches -/

/-- What comes of a query when no write crashes is what the backend answers. -/
theorem outcome_of_not_mayCrash (h : ¬ e.MayCrash s) {f : Fetch} (hf : f.ttl ∈ e.lifetimes.all)
    (stage : Stage) (found : Option QueryResult) :
    e.cache.outcome answer (s.timing stage).answered f found = (answer f.query).mapError .error := by
  rw [Cache.outcome]
  cases answer f.query with
  | error err => rfl
  | ok r =>
    refine if_neg fun hcrash => h ?_
    rw [Bool.and_eq_true, Bool.and_eq_true] at hcrash
    exact ⟨hcrash.1.2, stage, f.ttl, hf, hcrash.2⟩

/-- When no time has passed, lifetimes may reach to the last time that there is. -/
theorem not_mayCrash_calm {backend : Backend Id} {pacing : Cache.Pacing} {today : Date}
    (h : ∀ ttl ∈ e.lifetimes.all, ttl ≤ lastTime) : ¬ e.MayCrash (.calm backend pacing today) := by
  rintro ⟨-, stage, ttl, httl, hcrash⟩
  have hfits : (Moment.calm 0).fits ttl = true :=
    decide_eq_true ((Nat.zero_add ttl).trans_le (h ttl httl))
  have hcrashes : (Moment.calm 0).crashes ttl = true := hcrash
  rw [Moment.crashes, hfits, Bool.not_true, Bool.and_false] at hcrashes
  cases hcrashes

theorem outcomes_of_not_mayCrash (h : ¬ e.MayCrash s) {f g : Fetch} (hf : f.ttl ∈ e.lifetimes.all)
    (hg : g.ttl ∈ e.lifetimes.all) (found found' : Option QueryResult) :
    Except.mapError (Halt.map AnalyticsError.query) (do
        let r ← e.cache.outcome answer (s.timing stage).answered f found
        return (r, ← e.cache.outcome answer (s.timing stage').answered g found')) =
      Except.mapError (fun cause => .error (.query cause)) (do
        let r ← answer f.query
        return (r, ← answer g.query)) := by
  rw [outcome_of_not_mayCrash h hf, outcome_of_not_mayCrash h hg]
  cases answer f.query with
  | error cause => rfl
  | ok r => cases answer g.query <;> rfl

theorem fetchPair_truthful (hcalm : ¬ e.MayCrash s) (hb : s.backend.Answers answer)
    (hc : Consistent answer asked) (hs : Faithful answer asked st) {f g : Fetch}
    (hf : (e.cache.keyFor f, f.query) ∈ asked) (hg : (e.cache.keyFor g, g.query) ∈ asked)
    (hfttl : f.ttl ∈ e.lifetimes.all) (hgttl : g.ttl ∈ e.lifetimes.all) :
    ((e.fetchPair s stage stage' f g).run.run st).1 =
      Except.mapError (fun cause => .error (.query cause)) (do
        let r ← answer f.query
        return (r, ← answer g.query)) := by
  rw [fetchPair, adapt_run, (Cache.queryPair_faithful hb hc hs hf hg _ _ s.pacing).1]
  exact outcomes_of_not_mayCrash hcalm hfttl hgttl _ _

/-- What queries of the cache end with is passed on. -/
theorem halts_of_cache (asked : List (Stage × Fetch)) (httl : ∀ x ∈ asked, x.2.ttl ∈ e.lifetimes.all)
    {halt : Halt QueryError}
    (h : e.cache.Halts s.backend (asked.map fun x => ((s.timing x.1).answered, x.2)) halt) :
    e.Halts s (asked.map (·.2.query)) (halt.map .query) := by
  cases halt with
  | error cause =>
    rw [Cache.Halts, List.map_map] at h
    exact h
  | crash =>
    obtain ⟨henabled, x, hx, hcrash⟩ := h
    obtain ⟨⟨stage, f⟩, hmem, rfl⟩ := List.mem_map.mp hx
    exact ⟨henabled, stage, f.ttl, httl _ hmem, hcrash⟩

section

variable {allowed : String → QueryResult → Prop} {f g : Fetch}

theorem fetch_yields (hf : e.cache.Admits s.backend allowed f) (httl : f.ttl ∈ e.lifetimes.all)
    (stage : Stage) :
    CacheM.Yields allowed (allowed (e.cache.keyFor f)) (e.Halts s [f.query]) (e.fetch s stage f) :=
  .adapt ((CacheM.Yields.query hf (s.timing stage)).imp (fun _ h => h) fun _ h =>
    halts_of_cache [(stage, f)] (List.forall_mem_singleton.mpr httl) h)

theorem fetchPair_yields (hf : e.cache.Admits s.backend allowed f)
    (hg : e.cache.Admits s.backend allowed g) (hfttl : f.ttl ∈ e.lifetimes.all)
    (hgttl : g.ttl ∈ e.lifetimes.all) (stage stage' : Stage) :
    CacheM.Yields allowed
      (fun found => allowed (e.cache.keyFor f) found.1 ∧ allowed (e.cache.keyFor g) found.2)
      (e.Halts s [f.query, g.query]) (e.fetchPair s stage stage' f g) :=
  .adapt ((CacheM.Yields.queryPair hf hg (s.timing stage) (s.timing stage') s.pacing).imp
    (fun _ h => h) fun _ h =>
      halts_of_cache [(stage, f), (stage', g)]
        (List.forall_mem_cons.mpr ⟨hfttl, List.forall_mem_singleton.mpr hgttl⟩) h)

end

/-! ## §3 Full keys -/

/-- The full key of what is fetched under a key of its own. -/
theorem keyFor_fetchOf (e : Engine) (select : Select) (key : CacheKey) (ttl : Nat) :
    e.cache.keyFor (fetchOf select (some key) ttl) = e.cache.keyspace ++ ":" ++ key.text :=
  rfl

/-- What has no key of its own is not stored under one. -/
theorem keyFor_derived_ne (e : Engine) (select select' : Select) (key : CacheKey) (ttl ttl' : Nat) :
    e.cache.keyFor (fetchOf select none ttl) ≠ e.cache.keyFor (fetchOf select' (some key) ttl') := by
  have hderived : e.cache.keyFor (fetchOf select none ttl) =
      e.cache.keyspace ++ ":" ++ CacheKey.derived select.query := rfl
  rw [hderived, keyFor_fetchOf]
  intro hkey
  rw [String.append_right_inj] at hkey
  exact CacheKey.derived_ne_text _ _ hkey

/-- Full keys that are the same belong to the same key, as long as the parts of the keys have no
colons. -/
theorem eq_of_keyFor_eq {select select' : Select} {key key' : CacheKey} {ttl ttl' : Nat}
    (hkey : key.IsPlain) (hkey' : key'.IsPlain)
    (h : e.cache.keyFor (fetchOf select (some key) ttl) =
      e.cache.keyFor (fetchOf select' (some key') ttl')) : key = key' := by
  rw [keyFor_fetchOf, keyFor_fetchOf] at h
  exact CacheKey.eq_of_text_eq hkey hkey' (by simpa using h)

end Engine

end SnapshotAnalytics

import Mathlib.Logic.Function.Basic
import SnapshotAnalytics.Proofs.Cache.Agreement
import SnapshotAnalytics.Proofs.Cache.ReadThrough
import SnapshotAnalytics.Settings.Check

/-!
# Caches that share a store

A cache owns the keys that start with its keyspace and a colon. Whatever it does shows only under keys
that it owns, and depends only on them. So caches with different keyspaces that share a store do not
interfere: each of them answers as if the others were not there, however their operations follow on
each other.
-/

namespace SnapshotAnalytics

/-! ## §1 Owned keys -/

namespace Cache

/-- What the keys of a cache start with. -/
def keyPrefix (c : Cache) : String :=
  c.keyspace ++ ":"

/-- Whether a key belongs to a cache. -/
def owns (c : Cache) (key : String) : Bool :=
  c.keyPrefix.toList.isPrefixOf key.toList

/-- A keyspace that passes the check of the settings. -/
def Accepted (c : Cache) : Prop :=
  ∃ settings : CacheSettings, settings.keyspace = c.keyspace ∧
    Settings.checkCache settings = .ok ()

variable {c c' : Cache} {key : String}

/-- No character of an accepted keyspace is reserved. -/
theorem Accepted.isReserved (hc : c.Accepted) :
    ∀ char ∈ c.keyspace.toList, Settings.isReserved char = false := by
  obtain ⟨settings, hkeyspace, hcheck⟩ := hc
  rw [← hkeyspace]
  unfold Settings.checkCache at hcheck
  split at hcheck
  · cases hcheck
  · split at hcheck
    · cases hcheck
    · rename_i hnone
      simpa using hnone

theorem Accepted.isPlain (hc : c.Accepted) :
    ∀ char ∈ c.keyPrefix.toList, Text.Glob.isPlain char = true := by
  intro char hchar
  rw [keyPrefix, String.toList_append] at hchar
  rcases List.mem_append.mp hchar with hkeyspace | hcolon
  · have hfree := hc.isReserved char hkeyspace
    simp only [Settings.isReserved, Bool.or_eq_false_iff] at hfree
    simp [Text.Glob.isPlain, bne, hfree]
  · rw [List.mem_singleton.mp hcolon]
    decide

theorem owns_keyFor (c : Cache) (f : Fetch) : c.owns (c.keyFor f) = true := by
  rw [owns, keyFor, List.isPrefixOf_iff_prefix, String.toList_append]
  exact List.prefix_append ..

/-- The keyspace is what stands before the first colon of a key. -/
theorem takeWhile_of_owns (hc : c.Accepted) (h : c.owns key = true) :
    key.toList.takeWhile (· ≠ ':') = c.keyspace.toList := by
  obtain ⟨rest, hrest⟩ := List.isPrefixOf_iff_prefix.mp h
  rw [← hrest, keyPrefix, String.toList_append, List.append_assoc, List.takeWhile_append_of_pos]
  · exact List.append_nil _
  · intro char hchar
    have hfree := hc.isReserved char hchar
    refine decide_eq_true fun hcolon => ?_
    rw [hcolon] at hfree
    exact absurd hfree (by decide)

/-- A key belongs to one keyspace only. -/
theorem keyspace_eq_of_owns (hc : c.Accepted) (hc' : c'.Accepted) (h : c.owns key = true)
    (h' : c'.owns key = true) : c.keyspace = c'.keyspace := by
  rw [← String.toList_inj, ← takeWhile_of_owns hc h, takeWhile_of_owns hc' h']

/-- A cache deletes only keys that it owns, whatever the pattern is. -/
theorem owns_of_covers (hc : c.Accepted) {pattern : Option String}
    (h : Text.Glob.covers (c.fullPattern pattern) key = true) : c.owns key = true :=
  List.isPrefixOf_iff_prefix.mpr (Text.Glob.prefix_of_covers hc.isPlain h)

/-- Without a pattern it deletes all of them. -/
theorem covers_fullPattern_none (hc : c.Accepted) :
    Text.Glob.covers (c.fullPattern none) key = c.owns key :=
  Text.Glob.covers_star hc.isPlain

/-- Without a pattern an invalidation removes all keys that the cache owns, and no others. -/
theorem invalidate_none (hc : c.Accepted) {t : Moment} (ht : t.deleteFault = none) (s : CacheState) :
    ∃ store, (c.invalidate (m := Id) t none).run.run s =
        (.ok ((s.store.keys t.now).filter c.owns).length, { s with store := store }) ∧
      store.entries = s.store.entries.filter fun e => !c.owns e.1 := by
  have hcovers : Text.Glob.covers (c.fullPattern none) = c.owns :=
    funext fun _ => covers_fullPattern_none hc
  rw [invalidate_run, ht]
  cases hdelete : s.store.deleteMatching t.now (c.fullPattern none) with
  | error e =>
    -- The pattern is a plain keyspace and a star, and such a pattern is always read.
    have hread : Text.Glob.read (c.fullPattern none) = _ := Text.Glob.read_star hc.isPlain
    rw [Store.deleteMatching_eq_error.mp hdelete] at hread
    cases hread
  | ok deleted =>
    obtain ⟨n, store⟩ := deleted
    obtain ⟨hn, hentries⟩ := Store.deleteMatching_eq_ok hdelete
    rw [hcovers] at hn hentries
    exact ⟨store, by rw [hn], hentries⟩

end Cache

/-! ## §2 Turns -/

/-- What a cache does in its turn, and when. A query can be taken as a whole or by its two halves,
between which other caches may have their turns. -/
inductive CacheTurn where
  | query (timing : Timing Id) (f : Fetch)
  | start (t : Moment) (f : Fetch)
  | finish (t : Moment) (f : Fetch) (found : Option QueryResult)
  | invalidate (t : Moment) (pattern : Option String)

namespace CacheTurn

/-- The time at which a turn begins. -/
def begins : CacheTurn → Nat
  | query timing _ => timing.asked.now
  | start t _ | finish t _ _ | invalidate t _ => t.now

/-- The time at which a turn ends. -/
def ends : CacheTurn → Nat
  | query timing _ => timing.answered.now
  | start t _ | finish t _ _ | invalidate t _ => t.now

end CacheTurn

/-- What a turn gives back. -/
inductive TurnReply where
  | answered (r : Except (Halt QueryError) QueryResult)
  | found (r : Option QueryResult)
  | invalidated (n : Except StoreError Nat)

namespace Cache

/-- The reply to a turn, and the state behind it. -/
def takeTurn (c : Cache) (b : Backend Id) (s : CacheState) : CacheTurn → TurnReply × CacheState
  | .query timing f =>
    let r := (c.query b timing f).run.run s
    (.answered r.1, r.2)
  | .start t f =>
    let r := (c.start t f).run s
    (.found r.1, r.2)
  | .finish t f found =>
    let r := (c.finish b t f found).run.run s
    (.answered r.1, r.2)
  | .invalidate t pattern =>
    let r := (c.invalidate (m := Id) t pattern).run.run s
    (.invalidated r.1, r.2)

end Cache

/-! ## §3 Turns of another cache -/

namespace Cache

variable {c : Cache} {b : Backend Id} {t : Moment} {f : Fetch} {s : CacheState} {store : Store String}
  {p : String → Bool} {now : Nat}

/-- A query starts with a read, or without touching the store. -/
theorem store_start (c : Cache) (t : Moment) (f : Fetch) (s : CacheState) :
    ((c.start t f).run s).2.store = s.store ∨
      ((c.start t f).run s).2.store = (s.store.get t.now (c.keyFor f)).2 := by
  have hlookup : ((lookup t (c.keyFor f)).run s).2.store = s.store ∨
      ((lookup t (c.keyFor f)).run s).2.store = (s.store.get t.now (c.keyFor f)).2 := by
    rw [lookup_run]
    split
    · exact Or.inl rfl
    · exact Or.inr rfl
  rw [start_run]
  split
  · split <;> rename_i hrun <;> rw [hrun] at hlookup <;> exact hlookup
  · exact Or.inl rfl

/-- It ends with a write under its own key, or without touching the store. -/
theorem store_finish (c : Cache) (b : Backend Id) (t : Moment) (f : Fetch)
    (found : Option QueryResult) (s : CacheState) :
    ((c.finish b t f found).run.run s).2.store = s.store ∨
      ∃ value ttl, ((c.finish b t f found).run.run s).2.store =
        s.store.set t.horizon t.now (c.keyFor f) value ttl := by
  cases found with
  | some r => exact Or.inl rfl
  | none =>
    rw [finish_run_none]
    cases b.answer s.sent f.query with
    | error e => exact Or.inl rfl
    | ok r =>
      simp only [save_run]
      -- An answer is stored by a cache that is used, unless the store fails.
      cases c.enabled with
      | false => exact Or.inl rfl
      | true =>
        cases t.writeFault with
        | some reason => exact Or.inl rfl
        | none => exact Or.inr ⟨_, _, rfl⟩

theorem start_left (h : s.store.AgreeOn p now store) (hle : now ≤ t.now) :
    ((c.start t f).run s).2.store.AgreeOn p t.now store := by
  rcases store_start c t f s with hstore | hstore
  · rw [hstore]
    exact h.mono hle
  · rw [hstore]
    exact h.get_left hle

theorem finish_left (hp : ∀ key, c.owns key = true → p key = false)
    (h : s.store.AgreeOn p now store) (hle : now ≤ t.now) (found : Option QueryResult) :
    ((c.finish b t f found).run.run s).2.store.AgreeOn p t.now store := by
  rcases store_finish c b t f found s with hstore | ⟨value, ttl, hstore⟩
  · rw [hstore]
    exact h.mono hle
  · rw [hstore]
    exact h.set_left hle (hp _ (c.owns_keyFor f))

/-- A turn shows only under keys that its cache owns. -/
theorem takeTurn_left (hc : c.Accepted) (hp : ∀ key, c.owns key = true → p key = false)
    (h : s.store.AgreeOn p now store) {turn : CacheTurn} (hle : now ≤ turn.begins)
    (hends : turn.begins ≤ turn.ends) :
    (c.takeTurn b s turn).2.store.AgreeOn p turn.ends store := by
  -- Reads and writes are under a key of the cache, and deletions are within its keyspace.
  cases turn with
  | query timing f => exact finish_left hp (start_left h hle) hends _
  | start t f => exact start_left h hle
  | finish t f found => exact finish_left hp h hle found
  | invalidate t pattern =>
    simp only [takeTurn, invalidate_run]
    split
    · exact h.mono hle
    · split
      · exact h.mono hle
      · rename_i hdelete
        exact h.deleteMatching_left hle (fun key hcovers => hp key (owns_of_covers hc hcovers))
          hdelete

end Cache

/-! ## §4 Turns of the cache itself -/

/-- Two states that are the same to a cache from a time on. -/
structure CacheState.AgreeFor (c : Cache) (now : Nat) (s s' : CacheState) : Prop where
  store : s.store.AgreeOn c.owns now s'.store
  counters : s.counters = s'.counters
  sent : s.sent = s'.sent

namespace Cache

variable {c : Cache} {b : Backend Id} {t : Moment} {f : Fetch} {s s' : CacheState} {now : Nat}

theorem start_agree (h : s.AgreeFor c now s') (hle : now ≤ t.now) :
    ((c.start t f).run s).1 = ((c.start t f).run s').1 ∧
      ((c.start t f).run s).2.AgreeFor c t.now ((c.start t f).run s').2 := by
  obtain ⟨store, counters, sent⟩ := s
  obtain ⟨store', counters', sent'⟩ := s'
  obtain ⟨hstore, rfl, rfl⟩ := h
  have hget := hstore.get_fst_eq hle (c.owns_keyFor f)
  have hread := hstore.get (c.keyFor f) hle
  rw [start_run, start_run, lookup_run, lookup_run]
  cases c.enabled with
  | false => exact ⟨rfl, hstore.mono hle, rfl, rfl⟩
  | true =>
    -- A store that fails shows nothing of either, and one that does not shows both the same.
    cases t.readFault with
    | some reason => exact ⟨rfl, hstore.mono hle, rfl, rfl⟩
    | none =>
      simp only [hget, if_true]
      cases ((store'.get t.now (c.keyFor f)).1.bind QueryResult.decode?) with
      | none => exact ⟨rfl, hread, rfl, rfl⟩
      | some r => exact ⟨rfl, hread, rfl, rfl⟩

theorem finish_agree (h : s.AgreeFor c now s') (hle : now ≤ t.now) (found : Option QueryResult) :
    ((c.finish b t f found).run.run s).1 = ((c.finish b t f found).run.run s').1 ∧
      ((c.finish b t f found).run.run s).2.AgreeFor c t.now
        ((c.finish b t f found).run.run s').2 := by
  obtain ⟨store, counters, sent⟩ := s
  obtain ⟨store', counters', sent'⟩ := s'
  obtain ⟨hstore, rfl, rfl⟩ := h
  cases found with
  | some r => exact ⟨rfl, hstore.mono hle, rfl, rfl⟩
  | none =>
    rw [finish_run_none, finish_run_none]
    cases b.answer sent f.query with
    | error e => exact ⟨rfl, hstore.mono hle, rfl, rfl⟩
    | ok r =>
      simp only [save_run]
      cases c.enabled with
      | false => exact ⟨rfl, hstore.mono hle, rfl, rfl⟩
      | true =>
        -- Whether the write crashes depends on the moment alone.
        refine ⟨rfl, ?_⟩
        cases t.writeFault with
        | some reason => exact ⟨hstore.mono hle, rfl, rfl⟩
        | none => exact ⟨hstore.set hle, rfl, rfl⟩

/-- A turn depends only on keys that its cache owns. -/
theorem takeTurn_agree (hc : c.Accepted) (h : s.AgreeFor c now s') {turn : CacheTurn}
    (hle : now ≤ turn.begins) (hends : turn.begins ≤ turn.ends) :
    (c.takeTurn b s turn).1 = (c.takeTurn b s' turn).1 ∧
      (c.takeTurn b s turn).2.AgreeFor c turn.ends (c.takeTurn b s' turn).2 := by
  cases turn with
  | query timing f =>
    obtain ⟨hfound, hstart⟩ := start_agree (t := timing.asked) (f := f) h hle
    obtain ⟨hanswer, hfinish⟩ := finish_agree (b := b) (t := timing.answered) (f := f) hstart hends
      ((c.start timing.asked f).run s).1
    simp only [takeTurn, query_run, ← hfound]
    exact ⟨congrArg TurnReply.answered hanswer, hfinish⟩
  | start t f =>
    obtain ⟨hfound, hstart⟩ := start_agree (f := f) h hle
    exact ⟨congrArg TurnReply.found hfound, hstart⟩
  | finish t f found =>
    obtain ⟨hanswer, hfinish⟩ := finish_agree (b := b) (f := f) h hle found
    exact ⟨congrArg TurnReply.answered hanswer, hfinish⟩
  | invalidate t pattern =>
    simp only [takeTurn, invalidate_run]
    cases t.deleteFault with
    | some reason => exact ⟨rfl, h.store.mono hle, h.counters, h.sent⟩
    | none =>
      -- What the pattern covers lies within the keyspace, so both stores lose the same owned keys.
      have howned : ∀ key, Text.Glob.covers (c.fullPattern pattern) key = true →
          c.owns key = true := fun key => owns_of_covers hc
      have hnow : now ≤ t.now := hle
      rcases h.store.deleteMatching hnow howned with ⟨e, he, he'⟩ | ⟨n, r, r', hr, hr', hagree⟩
      · simp only [he, he']
        exact ⟨trivial, h.store.mono hle, h.counters, h.sent⟩
      · simp only [hr, hr']
        exact ⟨trivial, hagree, h.counters, h.sent⟩

end Cache

/-! ## §5 Runs -/

variable {ι : Type}

/-- A store shared by caches, and what each of them has counted and sent. -/
structure SharedState (ι : Type) where
  store : Store String
  counters : ι → Counters
  sent : ι → List Query

/-- A turn of one of the caches. -/
structure SharedStep (ι : Type) where
  cache : ι
  turn : CacheTurn

/-- The times at which the turns of a run begin and end. -/
def SharedStep.times (steps : List (SharedStep ι)) : List Nat :=
  steps.flatMap fun step => [step.turn.begins, step.turn.ends]

/-- Times that do not run backwards do so neither in a turn nor from it to a later one. -/
theorem SharedStep.of_pairwise_times {step : SharedStep ι} {steps : List (SharedStep ι)}
    (h : (times (step :: steps)).Pairwise (· ≤ ·)) :
    step.turn.begins ≤ step.turn.ends ∧ (∀ next ∈ steps, step.turn.ends ≤ next.turn.begins) ∧
      (times steps).Pairwise (· ≤ ·) := by
  have hcons : times (step :: steps) = step.turn.begins :: step.turn.ends :: times steps := rfl
  rw [hcons, List.pairwise_cons, List.pairwise_cons, List.forall_mem_cons] at h
  obtain ⟨⟨hforward, -⟩, hbehind, hrest⟩ := h
  refine ⟨hforward, fun next hnext => hbehind _ ?_, hrest⟩
  exact List.mem_flatMap.mpr ⟨next, hnext, List.mem_cons_self⟩

namespace SharedState

/-- There is a time at which all steps have ended. -/
theorem exists_end (steps : List (SharedStep ι)) :
    ∃ last, ∀ step ∈ steps, step.turn.ends ≤ last := by
  induction steps with
  | nil => exact ⟨0, List.forall_mem_nil _⟩
  | cons step steps ih =>
    obtain ⟨last, hlast⟩ := ih
    refine ⟨max step.turn.ends last, List.forall_mem_cons.mpr ⟨Nat.le_max_left .., ?_⟩⟩
    exact fun next hnext => Nat.le_trans (hlast next hnext) (Nat.le_max_right ..)

/-- The state of one of the caches. -/
def of (s : SharedState ι) (i : ι) : CacheState :=
  ⟨s.store, s.counters i, s.sent i⟩

variable [DecidableEq ι] (caches : ι → Cache) (backends : ι → Backend Id)

/-- The reply to a step, and the state behind it. -/
def perform (step : SharedStep ι) (s : SharedState ι) : TurnReply × SharedState ι :=
  let i := step.cache
  let r := (caches i).takeTurn (backends i) (s.of i) step.turn
  (r.1, ⟨r.2.store, Function.update s.counters i r.2.counters, Function.update s.sent i r.2.sent⟩)

/-- The replies to steps, each with its cache, and the state behind them. -/
def run : List (SharedStep ι) → SharedState ι → List (ι × TurnReply) × SharedState ι
  | [], s => ([], s)
  | step :: steps, s =>
    let performed := perform caches backends step s
    let rest := run steps performed.2
    ((step.cache, performed.1) :: rest.1, rest.2)

variable {caches} {i : ι} {s s' : SharedState ι} {step : SharedStep ι} {now : Nat}

theorem of_perform : (perform caches backends step s).2.of step.cache =
    ((caches step.cache).takeTurn (backends step.cache) (s.of step.cache) step.turn).2 := by
  simp [perform, of]

/-- A step of another cache makes no difference. -/
theorem agree_of_other (hcaches : ∀ i, (caches i).Accepted)
    (hdistinct : Function.Injective fun i => (caches i).keyspace)
    (h : (s.of i).AgreeFor (caches i) now (s'.of i)) (hle : now ≤ step.turn.begins)
    (hends : step.turn.begins ≤ step.turn.ends) (hother : step.cache ≠ i) :
    ((perform caches backends step s).2.of i).AgreeFor (caches i) step.turn.ends (s'.of i) := by
  have howned : ∀ key, (caches step.cache).owns key = true → (caches i).owns key = false := by
    intro key hkey
    rw [Bool.eq_false_iff]
    intro hown
    exact hother (hdistinct (Cache.keyspace_eq_of_owns (hcaches _) (hcaches i) hkey hown))
  refine ⟨?_, ?_, ?_⟩
  · exact Cache.takeTurn_left (s := s.of step.cache) (hcaches _) howned h.store hle hends
  · simpa [perform, of, Function.update_of_ne (Ne.symm hother)] using h.counters
  · simpa [perform, of, Function.update_of_ne (Ne.symm hother)] using h.sent

/-- **A run of all caches** and the run of the steps of one of them are the same to that one. -/
theorem run_agree (hcaches : ∀ i, (caches i).Accepted)
    (hdistinct : Function.Injective fun i => (caches i).keyspace) {steps : List (SharedStep ι)}
    (hle : ∀ step ∈ steps, now ≤ step.turn.begins) (hordered : (SharedStep.times steps).Pairwise (· ≤ ·))
    (h : (s.of i).AgreeFor (caches i) now (s'.of i)) {later : Nat} (hlater : now ≤ later)
    (hends : ∀ step ∈ steps, step.turn.ends ≤ later) :
    (run caches backends steps s).1.filter (·.1 = i) =
        (run caches backends (steps.filter (·.cache = i)) s').1 ∧
      ((run caches backends steps s).2.of i).AgreeFor (caches i) later
        ((run caches backends (steps.filter (·.cache = i)) s').2.of i) := by
  induction steps generalizing s s' now with
  | nil => exact ⟨rfl, h.store.mono hlater, h.counters, h.sent⟩
  | cons step steps ih =>
    obtain ⟨hfirst, _⟩ := List.forall_mem_cons.mp hle
    obtain ⟨hforward, hbehind, hordered⟩ := SharedStep.of_pairwise_times hordered
    obtain ⟨hend, hends⟩ := List.forall_mem_cons.mp hends
    -- A step of another cache touches nothing that this one owns, so the run can do without it.
    by_cases hown : step.cache = i
    · subst hown
      obtain ⟨hreply, hstep⟩ := Cache.takeTurn_agree (b := backends step.cache) (hcaches _) h hfirst
        hforward
      rw [← of_perform, ← of_perform] at hstep
      obtain ⟨hreplies, hrest⟩ := ih hbehind hordered hstep hend hends
      rw [List.filter_cons_of_pos (by simp)]
      simp only [run]
      rw [List.filter_cons_of_pos (by simp), hreplies]
      exact ⟨congrArg (fun reply => (step.cache, reply) :: _) hreply, hrest⟩
    · have hstep := agree_of_other backends hcaches hdistinct h hfirst hforward hown
      obtain ⟨hreplies, hrest⟩ := ih hbehind hordered hstep hend hends
      rw [List.filter_cons_of_neg (by simpa using hown)]
      simp only [run]
      rw [List.filter_cons_of_neg (by simpa using hown)]
      exact ⟨hreplies, hrest⟩

/-- **Caches that share a store do not interfere** as long as their keyspaces pass the check of the
settings and are different. In a run of all of them each one replies as in a run of its own turns only,
counts and sends the same, and has the same live keys from then on. Without a pattern an invalidation
removes all keys of its cache, counts those that are live, and removes no others. -/
theorem caches_independent (caches : ι → Cache) (backends : ι → Backend Id)
    (hcaches : ∀ i, (caches i).Accepted) (hdistinct : Function.Injective fun i => (caches i).keyspace)
    (steps : List (SharedStep ι)) (hordered : (SharedStep.times steps).Pairwise (· ≤ ·))
    (s : SharedState ι) (hs : Keyed.Ascending s.store.entries) (i : ι) :
    let all := run caches backends steps s
    let own := run caches backends (steps.filter (·.cache = i)) s
    all.1.filter (·.1 = i) = own.1 ∧
      all.2.counters i = own.2.counters i ∧ all.2.sent i = own.2.sent i ∧
      (∀ now, (∀ step ∈ steps, step.turn.ends ≤ now) →
        (all.2.store.keys now).filter (caches i).owns =
          (own.2.store.keys now).filter (caches i).owns) ∧
      ∀ (t : Moment) (state : CacheState), t.deleteFault = none →
        ∃ store, ((caches i).invalidate (m := Id) t none).run.run state =
            (.ok ((state.store.keys t.now).filter (caches i).owns).length,
              { state with store := store }) ∧
          store.entries = state.store.entries.filter fun e => !(caches i).owns e.1 := by
  intro all own
  have hrun {now : Nat} (hnow : ∀ step ∈ steps, step.turn.ends ≤ now) :=
    run_agree backends (i := i) hcaches hdistinct (fun _ _ => Nat.zero_le _) hordered
      ⟨.refl hs, rfl, rfl⟩ (Nat.zero_le now) hnow
  -- A time after all turns exists, and from any such time on the live keys are the same.
  obtain ⟨last, hlast⟩ := exists_end steps
  obtain ⟨hreplies, hagree⟩ := hrun hlast
  refine ⟨hreplies, hagree.counters, hagree.sent, ?_, ?_⟩
  · intro now hnow
    exact (hrun hnow).2.store.keys_eq (Nat.le_refl now)
  · intro t state ht
    exact Cache.invalidate_none (hcaches i) ht state

/-! Two desks whose keyspaces start alike: one stores an answer between the two halves of a query of the
other and then removes all that is its own. -/

/-- The desks. -/
def desks (second : Bool) : Cache :=
  ⟨if second then "desk2" else "desk", true⟩

/-- One answer to every query. -/
def deskBackend : Backend Id where
  name := "desks"
  answer := fun _ _ => .ok (.ofRecords ["desk"] [[("desk", .text "EQ")]])
  health := .ok ()

/-- The turns of the desks. -/
def deskSteps : List (SharedStep Bool) :=
  let f : Fetch := ⟨⟨"SELECT desk", []⟩, some "desks", nanoseconds 60⟩
  [⟨false, .start (.calm 0) f⟩, ⟨true, .query ⟨.calm 10, .calm 15⟩ f⟩, ⟨false, .finish (.calm 20) f none⟩,
    ⟨true, .invalidate (.calm 30) (some "*")⟩, ⟨false, .invalidate (.calm 40) none⟩]

theorem caches_independent_desks :
    let s : SharedState Bool := ⟨.empty, fun _ => .zero, fun _ => []⟩
    let all := run desks (fun _ => deskBackend) deskSteps s
    all.1.filter (·.1 = false) =
        [(false, .found none), (false, .answered (.ok (.ofRecords ["desk"] [[("desk", .text "EQ")]]))),
          (false, .invalidated (.ok 1))] ∧
      all.2.counters false = ⟨0, 1, 0⟩ := by
  intro s all
  have hcaches (second : Bool) : (desks second).Accepted :=
    ⟨⟨true, (desks second).keyspace, .default⟩, rfl, by cases second <;> rfl⟩
  have hdistinct : Function.Injective fun second => (desks second).keyspace := by
    intro first second h
    revert first second
    decide
  obtain ⟨hreplies, hcounters, _⟩ := caches_independent desks (fun _ => deskBackend) hcaches hdistinct
    deskSteps (by decide) s List.Pairwise.nil false
  exact ⟨hreplies.trans rfl, hcounters.trans rfl⟩

end SharedState

end SnapshotAnalytics

import SnapshotAnalytics.Proofs.Cache.Expiry
import SnapshotAnalytics.Proofs.Cache.Transparency
import Mathlib.Data.List.Count
import Mathlib.Logic.Function.Basic

/-!
# Queries in flight

Queries that are answered at the same time take turns: one looks its answer up, another one is sent, a
third one stores what it received, in any order. Two queries under one key can both miss, both be sent
and both store. As long as the backend is deterministic, and what is stored expires later on but at a
time that there is, this makes no difference: every query is given the answer of the backend, and in the
end the store holds what it would have held had they been answered one after the other.

The invariant is `InFlight.Sound`. It speaks of the store as it is shown at the end of the time in
question, which is how it is shown throughout, and of all queries in flight at once.
-/

namespace SnapshotAnalytics

/-! ## §1 Steps -/

/-- A query that is asked of a cache. Several caches may share the store. -/
structure Call where
  cache : Cache
  fetch : Fetch

/-- How far a call has come. -/
inductive CallStage where
  | waiting
  /-- Its answer was looked up and not found. -/
  | missed
  /-- It was answered, and the answer is to be stored. -/
  | received (r : QueryResult)
  | done (result : Except (Halt QueryError) QueryResult)

/-- How many steps a call can still take. -/
def CallStage.remaining : CallStage → Nat
  | waiting => 3
  | missed => 2
  | received _ => 1
  | done _ => 0

namespace Call

def key (call : Call) : String :=
  call.cache.keyFor call.fetch

def query (call : Call) : Query :=
  call.fetch.query

/-- Look the answer up: the state that is left behind and the next stage. -/
def lookUp (call : Call) (t : Moment) (s : CacheState) : CacheState × CallStage :=
  let found := (call.cache.start t call.fetch).run s
  (found.2,
    match found.1 with
    | some r => .done (.ok r)
    | none => .missed)

/-- Send the query. A cache that is not used does not store what is received. -/
def execute (call : Call) (b : Backend Id) (s : CacheState) : CacheState × CallStage :=
  let sent := (Cache.send b call.query).run.run s
  (sent.2,
    match sent.1 with
    | .error halt => .done (.error halt)
    | .ok r => if call.cache.enabled then .received r else .done (.ok r))

/-- Store what was received. -/
def save (call : Call) (t : Moment) (r : QueryResult) (s : CacheState) : CacheState × CallStage :=
  (((Cache.save t call.key call.fetch.ttl r).run s).2,
    .done (if t.crashes call.fetch.ttl then .error .crash else .ok r))

theorem remaining_lookUp (call : Call) (t : Moment) (s : CacheState) :
    (call.lookUp t s).2.remaining ≤ 2 := by
  rw [lookUp]
  cases ((call.cache.start t call.fetch).run s).1 <;> simp [CallStage.remaining]

theorem remaining_execute (call : Call) (b : Backend Id) (s : CacheState) :
    (call.execute b s).2.remaining ≤ 1 := by
  rw [execute]
  cases ((Cache.send b call.query).run.run s).1 with
  | error e => simp [CallStage.remaining]
  | ok r => cases call.cache.enabled <;> simp [CallStage.remaining]

end Call

/-- A step of a call. Looking up and storing take place at a moment. -/
inductive CallStep (ι : Type) where
  | lookUp (i : ι) (t : Moment)
  | execute (i : ι)
  | save (i : ι) (t : Moment)

/-- The call that takes a step. -/
def CallStep.caller {ι : Type} : CallStep ι → ι
  | lookUp i _ | execute i | save i _ => i

/-- The state of the cache and the stages of all calls. -/
structure InFlight (ι : Type) where
  state : CacheState
  stage : ι → CallStage

namespace InFlight

variable {ι : Type} [DecidableEq ι]

/-- A call moves on. -/
def advance (c : InFlight ι) (i : ι) (next : CacheState × CallStage) : InFlight ι :=
  ⟨next.1, Function.update c.stage i next.2⟩

/-- Take a step, if it is the next one of its call. -/
def perform (calls : ι → Call) (b : Backend Id) (c : InFlight ι) (step : CallStep ι) :
    Option (InFlight ι) :=
  match step, c.stage step.caller with
  | .lookUp i t, .waiting => some (c.advance i ((calls i).lookUp t c.state))
  | .execute i, .missed => some (c.advance i ((calls i).execute b c.state))
  | .save i t, .received r => some (c.advance i ((calls i).save t r c.state))
  | _, _ => none

/-- Take steps one after the other, each of them the next one of its call. -/
def performAll (calls : ι → Call) (b : Backend Id) (c : InFlight ι) (steps : List (CallStep ι)) :
    Option (InFlight ι) :=
  steps.foldlM (perform calls b) c

end InFlight

/-! ## §2 What holds meanwhile -/

/-- A call whose query has an answer, which it stores under its key. -/
structure Call.Stores (call : Call) (answer : Query → Except QueryError QueryResult) (key : String)
    (r : QueryResult) : Prop where
  enabled : call.cache.enabled = true
  key : call.key = key
  answer : answer call.query = .ok r

/-- A step in the time up to `last`: the store does not fail, and what is stored is still live then and
expires at a time that there is. -/
def CallStep.Within {ι : Type} (calls : ι → Call) (last : Nat) : CallStep ι → Prop
  | lookUp _ t => t.readFault = none ∧ t.now ≤ last
  | execute _ => True
  | save i t =>
    t.writeFault = none ∧ t.now ≤ last ∧ last < t.now + (calls i).fetch.ttl ∧
      t.fits (calls i).fetch.ttl = true

/-- Under a key the store shows something at the end if it did before. -/
def CacheState.Keeps (last : Nat) (s s' : CacheState) : Prop :=
  ∀ key, (s.store.shown last key).isSome = true → (s'.store.shown last key).isSome = true

/-- What the stage of a call says: what was received is the answer of the backend, and so is the
result, which the store shows if the call stores it. -/
def CallStage.Sound (call : Call) (answer : Query → Except QueryError QueryResult) (last : Nat)
    (s : CacheState) : CallStage → Prop
  | waiting | missed => True
  | received r => call.Stores answer call.key r
  | done result =>
    result = (answer call.query).mapError .error ∧
      ∀ r, call.Stores answer call.key r → (s.store.shown last call.key).isSome = true

theorem CacheState.Keeps.refl (last : Nat) (s : CacheState) : s.Keeps last s :=
  fun _ h => h

/-- What is true of a stage remains true when the store shows no less. -/
theorem CallStage.Sound.mono {call : Call} {answer : Query → Except QueryError QueryResult}
    {last : Nat} {s s' : CacheState} {stage : CallStage} (h : stage.Sound call answer last s)
    (hkeeps : s.Keeps last s') : stage.Sound call answer last s' := by
  cases stage with
  | waiting => trivial
  | missed => trivial
  | received r => exact h
  | done result => exact ⟨h.1, fun r hr => hkeeps _ (h.2 r hr)⟩

namespace InFlight

variable {ι : Type} (calls : ι → Call) (answer : Query → Except QueryError QueryResult) (last : Nat)

/-- A key stands for one query, and answers are read back from their texts. -/
structure Unambiguous : Prop where
  sameQuery : ∀ i j, (calls i).key = (calls j).key → (calls i).query = (calls j).query
  readsBack : ∀ i r, answer (calls i).query = .ok r → QueryResult.decode? r.encode = some r

/-- The store holds answers of calls under their keys, and none of them expires. -/
structure Filled (s : CacheState) : Prop where
  ascending : Keyed.Ascending s.store.entries
  live : ∀ e ∈ s.store.entries, Store.isLive last e.2 = true
  stored : ∀ e ∈ s.store.entries, ∃ i r, (calls i).Stores answer e.1 r ∧ e.2.value = r.encode

structure Sound (c : InFlight ι) : Prop where
  filled : Filled calls answer last c.state
  stages : ∀ i, (c.stage i).Sound (calls i) answer last c.state

/-- What is known of the step of one call, whatever the others are doing. -/
structure Moves (i : ι) (s : CacheState) (next : CacheState × CallStage) : Prop where
  filled : Filled calls answer last next.1
  keeps : s.Keeps last next.1
  sound : next.2.Sound (calls i) answer last next.1

variable {calls answer last} {b : Backend Id} {i : ι} {t : Moment} {s s' : CacheState}

/-! ## §3 Steps of one call -/

/-- What is known of the answer to a call, at any time until the end: it is the answer of the backend,
and it is stored until then. -/
theorem known_eq (hcalls : Unambiguous calls answer) (hs : Filled calls answer last s) {now : Nat}
    (hle : now ≤ last) (i : ι) :
    (s.store.shown last (calls i).key = none ∧ s.known now (calls i).key = none) ∨
      ∃ r, answer (calls i).query = .ok r ∧ s.store.shown last (calls i).key = some r.encode ∧
        s.known now (calls i).key = some r := by
  unfold CacheState.known Store.shown
  cases hfind : Keyed.find? (calls i).key s.store.entries with
  | none => exact Or.inl ⟨rfl, rfl⟩
  | some v =>
    right
    have hmem := Keyed.mem_of_find? hfind
    have hlive : Store.isLive last v = true := hs.live _ hmem
    have hnow : Store.isLive now v = true := Store.isLive_of_le hle hlive
    -- The entry may be that of another call, under the same key and so for the same query.
    obtain ⟨j, r, hstores, hvalue⟩ := hs.stored _ hmem
    have hvalue : v.value = r.encode := hvalue
    refine ⟨r, ?_, ?_, ?_⟩
    · rw [hcalls.sameQuery i j hstores.key.symm]
      exact hstores.answer
    · simp [Option.filter_some, hlive, hvalue]
    · simp [Option.filter_some, hnow, hvalue, hcalls.readsBack j r hstores.answer]

/-- A read changes nothing that is shown. -/
theorem Filled.get (hs : Filled calls answer last s) {now : Nat} (hle : now ≤ last) {key : String}
    (hstore : s'.store = (s.store.get now key).2) :
    Filled calls answer last s' ∧ s.Keeps last s' := by
  have hmem : ∀ e ∈ s'.store.entries, e ∈ s.store.entries := by
    rw [hstore]
    exact fun e he => Store.mem_of_mem_get he
  refine ⟨⟨?_, fun e he => hs.live e (hmem e he), fun e he => hs.stored e (hmem e he)⟩, ?_⟩
  · rw [hstore]
    exact Store.ascending_get hs.ascending
  · intro k hk
    rw [hstore, Store.shown_get hs.ascending hle]
    exact hk

/-- A write shows what it stores until the end, and hides nothing. -/
theorem Filled.set (hs : Filled calls answer last s) {horizon now ttl : Nat} (hle : now ≤ last)
    (hlast : last < now + ttl) (hfits : Store.fits horizon now ttl = true) {r : QueryResult}
    (hr : (calls i).Stores answer (calls i).key r)
    (hstore : s'.store = s.store.set horizon now (calls i).key r.encode ttl) :
    Filled calls answer last s' ∧ s.Keeps last s' ∧
      (s'.store.shown last (calls i).key).isSome = true := by
  have hshown (k : String) : s'.store.shown last k =
      if k = (calls i).key then some r.encode else s.store.shown last k := by
    rw [hstore, Store.shown_set hs.ascending hle, if_pos hlast, hfits]
    simp only [true_and]
  -- Only the written entry is new: it is live at the end and holds the answer of its call.
  refine ⟨⟨?_, ?_, ?_⟩, ?_, ?_⟩
  · rw [hstore]
    exact Store.ascending_set hs.ascending
  · intro e he
    rw [hstore] at he
    rcases Store.mem_of_mem_set he with rfl | hold
    · exact decide_eq_true hlast
    · exact hs.live e hold
  · intro e he
    rw [hstore] at he
    rcases Store.mem_of_mem_set he with rfl | hold
    · exact ⟨i, r, hr, rfl⟩
    · exact hs.stored e hold
  · intro k hk
    rw [hshown]
    split
    · rfl
    · exact hk
  · rw [hshown, if_pos rfl]
    rfl

/-- A look-up that is not passed over reads the store and ends the call if the answer is known. -/
theorem exists_lookUp (hused : (calls i).cache.enabled = true) (ht : t.readFault = none)
    (s : CacheState) :
    ∃ s', s'.store = (s.store.get t.now (calls i).key).2 ∧
      (calls i).lookUp t s = (s',
        match s.known t.now (calls i).key with
        | some r => .done (.ok r)
        | none => .missed) := by
  rw [Call.lookUp, Cache.start_run_readable hused ht]
  exact ⟨_, rfl, rfl⟩

theorem moves_lookUp (hcalls : Unambiguous calls answer) (hs : Filled calls answer last s)
    (ht : t.readFault = none) (hle : t.now ≤ last) :
    Moves calls answer last i s ((calls i).lookUp t s) := by
  cases hused : (calls i).cache.enabled with
  | false =>
    have hstart : ((calls i).cache.start t (calls i).fetch).run s = (none, s) := by
      rw [Cache.start_run, hused]
      rfl
    -- A cache that is not used is passed over.
    rw [Call.lookUp, hstart]
    exact ⟨hs, .refl last s, trivial⟩
  | true =>
    obtain ⟨s', hstore, hlookUp⟩ := exists_lookUp hused ht s
    obtain ⟨hfilled, hkeeps⟩ := hs.get hle hstore
    rw [hlookUp]
    refine ⟨hfilled, hkeeps, ?_⟩
    -- What is found is the answer, and it stays until the end; otherwise the call goes on.
    rcases known_eq hcalls hs hle i with ⟨_, hunknown⟩ | ⟨r, hr, hshown, hknown⟩
    · rw [hunknown]
      exact trivial
    · rw [hknown]
      refine ⟨?_, fun _ _ => hkeeps _ ?_⟩
      · rw [hr]
        rfl
      · rw [hshown]
        rfl

/-- A call that looks its answer up when that is stored is done. -/
theorem lookUp_done (hcalls : Unambiguous calls answer) (hs : Filled calls answer last s)
    (ht : t.readFault = none) (hle : t.now ≤ last) (hused : (calls i).cache.enabled = true)
    (hshown : (s.store.shown last (calls i).key).isSome = true) :
    ((calls i).lookUp t s).2.remaining = 0 := by
  obtain ⟨s', _, hlookUp⟩ := exists_lookUp hused ht s
  rw [hlookUp]
  rcases known_eq hcalls hs hle i with ⟨hnone, _⟩ | ⟨r, _, _, hknown⟩
  · rw [hnone] at hshown
    cases hshown
  · rw [hknown]
    rfl

/-- A query that is sent is answered as by the backend, and the store is left alone. -/
theorem moves_execute (hb : b.Answers answer) (hs : Filled calls answer last s) :
    Moves calls answer last i s ((calls i).execute b s) := by
  rw [Call.execute, Cache.send_run, hb]
  refine ⟨⟨hs.ascending, hs.live, hs.stored⟩, .refl last s, ?_⟩
  -- A call that stores has an answer and a cache that is used, so it is not done here.
  cases hr : answer (calls i).query with
  | error e =>
    refine ⟨congrArg (Except.mapError Halt.error) hr.symm, fun r hstores => ?_⟩
    rw [hstores.answer] at hr
    cases hr
  | ok r =>
    cases hused : (calls i).cache.enabled with
    | false =>
      refine ⟨congrArg (Except.mapError Halt.error) hr.symm, fun r hstores => ?_⟩
      rw [hstores.enabled] at hused
      cases hused
    | true => exact ⟨hused, rfl, hr⟩

/-- What is stored is what was received. -/
theorem moves_save (hs : Filled calls answer last s)
    (hstep : (CallStep.save i t).Within calls last) {r : QueryResult}
    (hr : (calls i).Stores answer (calls i).key r) :
    Moves calls answer last i s ((calls i).save t r s) ∧
      (((calls i).save t r s).1.store.shown last (calls i).key).isSome = true := by
  obtain ⟨ht, hle, hlast, hfits⟩ := hstep
  have hcrash : t.crashes (calls i).fetch.ttl = false := by
    rw [Moment.crashes, hfits]
    exact Bool.and_false _
  rw [Call.save, Cache.save_run, ht, hcrash]
  obtain ⟨hfilled, hkeeps, hshown⟩ : Filled calls answer last { s with store := _ } ∧ _ :=
    hs.set hle hlast hfits hr rfl
  refine ⟨⟨hfilled, hkeeps, ?_, fun _ _ => hshown⟩, hshown⟩
  exact congrArg (Except.mapError Halt.error) hr.answer.symm

/-! ## §4 Steps of all calls -/

variable [DecidableEq ι] {c c' : InFlight ι} {step : CallStep ι} {steps : List (CallStep ι)}

@[simp] theorem state_advance (c : InFlight ι) (i : ι) (next : CacheState × CallStage) :
    (c.advance i next).state = next.1 :=
  rfl

@[simp] theorem stage_advance_self (c : InFlight ι) (i : ι) (next : CacheState × CallStage) :
    (c.advance i next).stage i = next.2 :=
  Function.update_self ..

theorem stage_advance_of_ne (c : InFlight ι) {i j : ι} (h : j ≠ i) (next : CacheState × CallStage) :
    (c.advance i next).stage j = c.stage j :=
  Function.update_of_ne h ..

@[simp] theorem advance_advance (c : InFlight ι) (i : ι) (next next' : CacheState × CallStage) :
    (c.advance i next).advance i next' = c.advance i next' := by
  simp [advance]

/-- The step of one call leaves the stages of all others as they are, and what they say stays true. -/
theorem Sound.advance (h : Sound calls answer last c) {next : CacheState × CallStage}
    (hmoves : Moves calls answer last i c.state next) :
    Sound calls answer last (c.advance i next) := by
  refine ⟨hmoves.filled, fun j => ?_⟩
  by_cases hj : j = i
  · subst hj
    rw [stage_advance_self]
    exact hmoves.sound
  · rw [stage_advance_of_ne c hj]
    exact (h.stages j).mono hmoves.keeps

omit [DecidableEq ι] in
theorem Sound.stores_of_received (h : Sound calls answer last c) {r : QueryResult}
    (hstage : c.stage i = .received r) : (calls i).Stores answer (calls i).key r := by
  have hsound := h.stages i
  rw [hstage] at hsound
  exact hsound

/-- What a step can be. -/
theorem perform_cases (h : perform calls b c step = some c') :
    (∃ i t, step = .lookUp i t ∧ c.stage i = .waiting ∧
        c' = c.advance i ((calls i).lookUp t c.state)) ∨
      (∃ i, step = .execute i ∧ c.stage i = .missed ∧
        c' = c.advance i ((calls i).execute b c.state)) ∨
      ∃ i t r, step = .save i t ∧ c.stage i = .received r ∧
        c' = c.advance i ((calls i).save t r c.state) := by
  unfold InFlight.perform at h
  split at h
  · rename_i hstage
    exact Or.inl ⟨_, _, rfl, hstage, (Option.some.inj h).symm⟩
  · rename_i hstage
    exact Or.inr (Or.inl ⟨_, rfl, hstage, (Option.some.inj h).symm⟩)
  · rename_i hstage
    exact Or.inr (Or.inr ⟨_, _, _, rfl, hstage, (Option.some.inj h).symm⟩)
  · cases h

/-- **A step keeps the invariant**, whichever call takes it, and hides nothing that was stored. -/
theorem Sound.of_perform (hb : b.Answers answer) (hcalls : Unambiguous calls answer)
    (h : Sound calls answer last c) (hstep : step.Within calls last)
    (hperform : perform calls b c step = some c') :
    Sound calls answer last c' ∧ c.state.Keeps last c'.state := by
  rcases perform_cases hperform with ⟨i, t, rfl, _, rfl⟩ | ⟨i, rfl, _, rfl⟩ |
    ⟨i, t, r, rfl, hstage, rfl⟩
  · have hmoves := moves_lookUp (i := i) hcalls h.filled hstep.1 hstep.2
    exact ⟨h.advance hmoves, hmoves.keeps⟩
  · have hmoves := moves_execute (i := i) hb h.filled
    exact ⟨h.advance hmoves, hmoves.keeps⟩
  · have hr := h.stores_of_received hstage
    have hmoves := (moves_save h.filled hstep hr).1
    exact ⟨h.advance hmoves, hmoves.keeps⟩

/-- A step takes its call nearer to its end, and no other call. -/
theorem remaining_perform (h : perform calls b c step = some c') (j : ι) :
    (if step.caller = j then 1 else 0) + (c'.stage j).remaining ≤ (c.stage j).remaining := by
  have hadvance {i : ι} {stage : CallStage} {next : CacheState × CallStage}
      (hstage : c.stage i = stage) (hnext : next.2.remaining < stage.remaining) :
      (if i = j then 1 else 0) + ((c.advance i next).stage j).remaining ≤
        (c.stage j).remaining := by
    subst hstage
    by_cases hj : j = i
    · subst hj
      rw [if_pos rfl, stage_advance_self]
      omega
    · rw [if_neg (Ne.symm hj), stage_advance_of_ne c hj]
      omega
  -- Each of the three steps has its own bound on what is left.
  rcases perform_cases h with ⟨i, t, rfl, hstage, rfl⟩ | ⟨i, rfl, hstage, rfl⟩ |
    ⟨i, t, r, rfl, hstage, rfl⟩
  · exact hadvance hstage (Nat.lt_succ_of_le ((calls i).remaining_lookUp t c.state))
  · exact hadvance hstage (Nat.lt_succ_of_le ((calls i).remaining_execute b c.state))
  · exact hadvance hstage Nat.zero_lt_one

/-- A call that is not done can take its next step. -/
theorem exists_perform (c : InFlight ι) (h : 0 < (c.stage i).remaining) (t : Moment) :
    ∃ step ∈ [.lookUp i t, .execute i, .save i t], (perform calls b c step).isSome = true := by
  cases hstage : c.stage i with
  | waiting => exact ⟨.lookUp i t, by simp, by simp [perform, CallStep.caller, hstage]⟩
  | missed => exact ⟨.execute i, by simp, by simp [perform, CallStep.caller, hstage]⟩
  | received r => exact ⟨.save i t, by simp, by simp [perform, CallStep.caller, hstage]⟩
  | done result =>
    rw [hstage] at h
    cases h

/-! ## §5 Runs -/

theorem performAll_cons {step : CallStep ι} :
    performAll calls b c (step :: steps) = some c' ↔
      ∃ c₁, perform calls b c step = some c₁ ∧ performAll calls b c₁ steps = some c' :=
  Option.bind_eq_some_iff

theorem performAll_append {steps' : List (CallStep ι)} :
    performAll calls b c (steps ++ steps') = some c' ↔
      ∃ c₁, performAll calls b c steps = some c₁ ∧ performAll calls b c₁ steps' = some c' := by
  rw [performAll, List.foldlM_append]
  exact Option.bind_eq_some_iff

/-- **A run keeps the invariant**, and hides nothing that was stored. -/
theorem Sound.of_performAll (hb : b.Answers answer) (hcalls : Unambiguous calls answer)
    (h : Sound calls answer last c) (hsteps : ∀ step ∈ steps, step.Within calls last)
    (hrun : performAll calls b c steps = some c') :
    Sound calls answer last c' ∧ c.state.Keeps last c'.state := by
  -- What one step hides nothing of is still shown after all others.
  induction steps generalizing c with
  | nil =>
    cases hrun
    exact ⟨h, .refl last _⟩
  | cons step steps ih =>
    obtain ⟨hstep, hsteps⟩ := List.forall_mem_cons.mp hsteps
    obtain ⟨c₁, hperform, hrest⟩ := performAll_cons.mp hrun
    obtain ⟨hsound, hkeeps⟩ := h.of_perform hb hcalls hstep hperform
    obtain ⟨hsound', hkeeps'⟩ := ih hsound hsteps hrest
    exact ⟨hsound', fun key hkey => hkeeps' key (hkeeps key hkey)⟩

/-- The steps that a call has taken and those that it can still take are no more than it could take at
the start. -/
theorem countP_add_remaining (hrun : performAll calls b c steps = some c') (i : ι) :
    steps.countP (·.caller = i) + (c'.stage i).remaining ≤ (c.stage i).remaining := by
  induction steps generalizing c with
  | nil =>
    cases hrun
    simp
  | cons step steps ih =>
    obtain ⟨c₁, hperform, hrest⟩ := performAll_cons.mp hrun
    have hstep := remaining_perform hperform i
    have hsteps := ih hrest
    rw [List.countP_cons]
    simp only [decide_eq_true_eq]
    omega

/-- The steps of a call that nothing comes between. -/
def stepsOf (i : ι) (timing : Timing Id) : List (CallStep ι) :=
  [.lookUp i timing.asked, .execute i, .save i timing.answered]

variable (calls) in
/-- A call that missed is sent, and what it receives is stored if its cache is used. -/
theorem performAll_finish (b : Backend Id) (c : InFlight ι) (hmissed : c.stage i = .missed)
    (t : Moment) :
    let finished := ((calls i).cache.finish b t (calls i).fetch none).run.run c.state
    ∃ steps, steps <+: [.execute i, .save i t] ∧
      performAll calls b c steps = some (c.advance i (finished.2, .done finished.1)) := by
  intro finished
  have hfinished : finished = _ := Cache.finish_run_none (calls i).cache b t (calls i).fetch c.state
  have hexecute : perform calls b c (.execute i) =
      some (c.advance i ((calls i).execute b c.state)) := by
    simp [perform, CallStep.caller, hmissed]
  have hsave (s : CacheState) (r : QueryResult) :
      perform calls b (c.advance i (s, .received r)) (.save i t) =
        some (c.advance i ((calls i).save t r s)) := by
    simp [perform, CallStep.caller]
  rw [Call.execute, Call.query, Cache.send_run] at hexecute
  -- How many steps the call takes depends on the answer and on whether it is stored.
  cases hr : b.answer c.state.sent (calls i).fetch.query with
  | error e =>
    rw [hr] at hfinished hexecute
    refine ⟨[.execute i], ⟨_, rfl⟩, performAll_cons.mpr ⟨_, hexecute, ?_⟩⟩
    rw [hfinished]
    rfl
  | ok r =>
    rw [hr] at hfinished hexecute
    cases hused : (calls i).cache.enabled with
    | false =>
      simp only [hused] at hfinished hexecute
      refine ⟨[.execute i], ⟨_, rfl⟩, performAll_cons.mpr ⟨_, hexecute, ?_⟩⟩
      rw [hfinished]
      rfl
    | true =>
      simp only [hused] at hfinished hexecute
      refine ⟨_, List.prefix_rfl, performAll_cons.mpr ⟨_, hexecute,
        performAll_cons.mpr ⟨_, hsave _ r, ?_⟩⟩⟩
      rw [hfinished]
      rfl

/-- As many of these steps as the call takes come to the query that it asks. -/
theorem performAll_query (b : Backend Id) (c : InFlight ι) (hwaiting : c.stage i = .waiting)
    (timing : Timing Id) :
    let query := ((calls i).cache.query b timing (calls i).fetch).run.run c.state
    ∃ steps, steps <+: stepsOf i timing ∧
      performAll calls b c steps = some (c.advance i (query.2, .done query.1)) := by
  intro query
  have hquery : query = _ := Cache.query_run (calls i).cache b timing (calls i).fetch c.state
  have hlookUp : perform calls b c (.lookUp i timing.asked) =
      some (c.advance i ((calls i).lookUp timing.asked c.state)) := by
    simp [perform, CallStep.caller, hwaiting]
  rw [Call.lookUp] at hlookUp
  rcases hstart : ((calls i).cache.start timing.asked (calls i).fetch).run c.state with ⟨_ | r, s⟩ <;>
    rw [hstart] at hquery hlookUp
  · obtain ⟨steps, hsteps, hfinish⟩ :=
      performAll_finish calls b (c.advance i (s, .missed)) (stage_advance_self ..)
        timing.answered
    refine ⟨.lookUp i timing.asked :: steps, List.cons_prefix_cons.mpr ⟨rfl, hsteps⟩,
      performAll_cons.mpr ⟨_, hlookUp, ?_⟩⟩
    rw [hfinish, advance_advance, hquery]
    rfl
  · -- What was found ends the call.
    refine ⟨[.lookUp i timing.asked], ⟨_, rfl⟩, performAll_cons.mpr ⟨_, hlookUp, ?_⟩⟩
    rw [hquery]
    rfl

/-- No call has begun, and nothing is stored. -/
structure Fresh (c : InFlight ι) : Prop where
  stored : c.state.store.entries = []
  waiting : ∀ i, c.stage i = .waiting

omit [DecidableEq ι] in
theorem Fresh.sound (h : Fresh c) : Sound calls answer last c := by
  have hnone : ∀ e, e ∉ c.state.store.entries := by
    rw [h.stored]
    exact fun e => List.not_mem_nil
  refine ⟨⟨?_, fun e he => absurd he (hnone e), fun e he => absurd he (hnone e)⟩, fun i => ?_⟩
  · rw [h.stored]
    exact List.Pairwise.nil
  · rw [h.waiting i]
    trivial

/-- What a call has stored is shown under its key. -/
theorem Sound.shown_of_save (h : Sound calls answer last c)
    (hstep : (CallStep.save i t).Within calls last)
    (hperform : perform calls b c (.save i t) = some c') :
    (c'.state.store.shown last (calls i).key).isSome = true := by
  rcases perform_cases hperform with ⟨_, _, hsave, _, _⟩ | ⟨_, hsave, _, _⟩ |
    ⟨i, t, r, hsave, hstage, rfl⟩
  · cases hsave
  · cases hsave
  · cases hsave
    have hr := h.stores_of_received hstage
    exact (moves_save h.filled hstep hr).2

/-- A call that begins when an answer has been stored under its key never sends its query. -/
theorem Sound.execute_not_mem (hb : b.Answers answer) (hcalls : Unambiguous calls answer)
    (h : Sound calls answer last c) (hwaiting : c.stage i = .waiting) {j : ι} {t t' : Moment}
    {before between after : List (CallStep ι)}
    (hsteps : ∀ step ∈ before ++ .save j t :: between ++ .lookUp i t' :: after,
      step.Within calls last)
    (hrun : performAll calls b c (before ++ .save j t :: between ++ .lookUp i t' :: after) = some c')
    (hkey : (calls i).key = (calls j).key) (hused : (calls i).cache.enabled = true) :
    .execute i ∉ before ++ .save j t :: between ++ .lookUp i t' :: after := by
  simp only [List.forall_mem_append, List.forall_mem_cons] at hsteps
  obtain ⟨⟨hbefore, hsave, hbetween⟩, hlookUp, hafter⟩ := hsteps
  obtain ⟨c₃, hrun₃, hrest⟩ := performAll_append.mp hrun
  obtain ⟨c₁, hrun₁, hrest₁⟩ := performAll_append.mp hrun₃
  obtain ⟨c₂, hperform, hrun₂⟩ := performAll_cons.mp hrest₁
  obtain ⟨c₄, hperform', hrun₄⟩ := performAll_cons.mp hrest
  -- What `j` stored is still shown when `i` looks its answer up, which is then done.
  have h₁ := (h.of_performAll hb hcalls hbefore hrun₁).1
  have h₂ := (h₁.of_perform hb hcalls hsave hperform).1
  obtain ⟨h₃, hkeeps⟩ := h₂.of_performAll hb hcalls hbetween hrun₂
  have hshown := hkeeps _ (h₁.shown_of_save hsave hperform)
  rw [← hkey] at hshown
  obtain ⟨hstage, hdone⟩ : c₃.stage i = .waiting ∧ (c₄.stage i).remaining = 0 := by
    rcases perform_cases hperform' with ⟨i, t', hstep, hstage, rfl⟩ | ⟨_, hstep, _, _⟩ |
      ⟨_, _, _, hstep, _, _⟩
    · cases hstep
      rw [stage_advance_self]
      exact ⟨hstage, lookUp_done hcalls h₃.filled hlookUp.1 hlookUp.2 hused hshown⟩
    · cases hstep
    · cases hstep
  -- It had not taken a step before, and it does not take another one.
  have hpast := countP_add_remaining hrun₃ i
  have hfuture := countP_add_remaining hrun₄ i
  rw [hstage, hwaiting] at hpast
  have hnotPast : (before ++ .save j t :: between).countP (·.caller = i) = 0 := by omega
  have hnotFuture : after.countP (·.caller = i) = 0 := by omega
  rw [List.countP_eq_zero] at hnotPast hnotFuture
  intro hmem
  rcases List.mem_append.mp hmem with hmem | hmem
  · exact hnotPast _ hmem (by simp [CallStep.caller])
  · rcases List.mem_cons.mp hmem with hstep | hmem
    · cases hstep
    · exact hnotFuture _ hmem (by simp [CallStep.caller])

/-! ## §6 Agreement -/

variable (calls answer last) in
/-- What the store holds when all calls are done: under the key of every call that stores, the text of
the answer of the backend, under the key of a call whose query fails nothing, and nothing that is not
such a text. -/
structure Settled (s : CacheState) : Prop where
  held : ∀ i r, (calls i).Stores answer (calls i).key r →
    s.store.shown last (calls i).key = some r.encode
  failed : ∀ i err, answer (calls i).query = .error err →
    ∀ e ∈ s.store.entries, e.1 ≠ (calls i).key
  nothingElse : ∀ e ∈ s.store.entries, ∃ i r, (calls i).Stores answer e.1 r ∧ e.2.value = r.encode

omit [DecidableEq ι] in
theorem Sound.settled (hcalls : Unambiguous calls answer) (h : Sound calls answer last c)
    (hdone : ∀ i, (c.stage i).remaining = 0) : Settled calls answer last c.state := by
  refine ⟨fun i r hr => ?_, fun i err herr e he hkey => ?_, h.filled.stored⟩
  · -- A call that stores is done, so its key shows something, and that is known to be its answer.
    have hsound := h.stages i
    have hi := hdone i
    cases hstage : c.stage i with
    | done result =>
      rw [hstage] at hsound
      rcases known_eq hcalls h.filled le_rfl i with ⟨hnone, _⟩ | ⟨r', hr', hshown, _⟩
      · have hsome := hsound.2 r hr
        rw [hnone] at hsome
        cases hsome
      · rw [hr.answer, Except.ok.injEq] at hr'
        rw [hshown, hr']
    | waiting => simp [hstage, CallStage.remaining] at hi
    | missed => simp [hstage, CallStage.remaining] at hi
    | received r => simp [hstage, CallStage.remaining] at hi
  · -- An entry under the key of a call that fails would be the answer to the same query.
    obtain ⟨j, r, hstores, _⟩ := h.filled.stored e he
    have hsame := hcalls.sameQuery j i (hstores.key.trans hkey)
    rw [← hsame, hstores.answer] at herr
    cases herr

/-- **Queries that are answered at the same time agree.** Whatever the order of their steps: each of
them takes at most three steps and can always take the next one until it is done; then its result is the
answer of the backend to its own query. None that begins when an answer has been stored under its key
sends its query. When all are done the store holds the answers and nothing else. A call that nothing
comes between is a query of its cache. -/
theorem performAll_agrees (calls : ι → Call) (answer : Query → Except QueryError QueryResult)
    (b : Backend Id) (hb : b.Answers answer) (hcalls : Unambiguous calls answer) {c c' : InFlight ι}
    (hfresh : Fresh c) (last : Nat) {steps : List (CallStep ι)}
    (hsteps : ∀ step ∈ steps, step.Within calls last)
    (hrun : performAll calls b c steps = some c') :
    (∀ i, steps.countP (·.caller = i) + (c'.stage i).remaining ≤ 3) ∧
      (∀ i t, 0 < (c'.stage i).remaining →
        ∃ step ∈ [.lookUp i t, .execute i, .save i t], (perform calls b c' step).isSome = true) ∧
      (∀ i result, c'.stage i = .done result → result = (answer (calls i).query).mapError .error) ∧
      (∀ i j t t' before between after,
        steps = before ++ .save j t :: between ++ .lookUp i t' :: after →
          (calls i).key = (calls j).key → (calls i).cache.enabled = true → .execute i ∉ steps) ∧
      ((∀ i, (c'.stage i).remaining = 0) → Settled calls answer last c'.state) ∧
      ∀ i timing, c'.stage i = .waiting →
        let query := ((calls i).cache.query b timing (calls i).fetch).run.run c'.state
        ∃ alone, alone <+: stepsOf i timing ∧
          performAll calls b c' alone = some (c'.advance i (query.2, .done query.1)) := by
  have hsound : Sound calls answer last c := hfresh.sound
  obtain ⟨hsound', _⟩ := hsound.of_performAll hb hcalls hsteps hrun
  refine ⟨?_, fun i t hi => exists_perform c' hi t, ?_, ?_, hsound'.settled hcalls,
    fun i timing hwaiting => performAll_query b c' hwaiting timing⟩
  · intro i
    have hcount := countP_add_remaining hrun i
    rw [hfresh.waiting i] at hcount
    exact hcount
  · intro i result hstage
    have hstage' := hsound'.stages i
    rw [hstage] at hstage'
    exact hstage'.1
  · rintro i j t t' before between after rfl hkey hused
    exact hsound.execute_not_mem hb hcalls (hfresh.waiting i) hsteps hrun hkey hused

/-! Two calls for the desks both miss, both send their query and both store, the one that was answered
first last. A third one, under another key, fails meanwhile. -/

open CacheStep (deskBackend decode?_encode_desks)

def deskCalls : Fin 3 → Call
  | 0 | 1 => ⟨⟨"v", true⟩, ⟨⟨"SELECT desk", []⟩, some "desks", 1000⟩⟩
  | 2 => ⟨⟨"v", true⟩, ⟨⟨"SELECT other", []⟩, some "other", 60000⟩⟩

def deskTurns : List (CallStep (Fin 3)) :=
  [.lookUp 0 (.calm 0), .lookUp 1 (.calm 1), .execute 1, .lookUp 2 (.calm 2), .execute 0,
    .save 0 (.calm 3), .execute 2, .save 1 (.calm 4)]

theorem performAll_agrees_desks :
    ∃ c', performAll deskCalls deskBackend ⟨.initial, fun _ => .waiting⟩ deskTurns = some c' ∧
      (∀ i result, c'.stage i = .done result →
        result = Except.mapError .error (deskBackend.answer [] (deskCalls i).query)) ∧
      Settled deskCalls (deskBackend.answer []) 5 c'.state := by
  have hcalls : Unambiguous deskCalls (deskBackend.answer []) := by
    refine ⟨by decide +kernel, fun i r hr => ?_⟩
    -- The only answer is that of the known table; whatever else is asked has none.
    by_cases hsql : (deskCalls i).query.sql = "SELECT desk"
    · simp only [deskBackend, if_pos hsql] at hr
      obtain rfl := Except.ok.inj hr
      exact decode?_encode_desks
    · simp only [deskBackend, if_neg hsql] at hr
      cases hr
  have hfresh : Fresh (⟨.initial, fun _ => .waiting⟩ : InFlight (Fin 3)) := ⟨rfl, fun _ => rfl⟩
  have hsteps : ∀ step ∈ deskTurns, step.Within deskCalls 5 := by
    simp [deskTurns, CallStep.Within, deskCalls, Moment.calm, Moment.fits, Store.fits, lastTime]
  have hrun : performAll deskCalls deskBackend ⟨.initial, fun _ => .waiting⟩ deskTurns = some _ := rfl
  obtain ⟨_, _, hresults, _, hsettled, _⟩ := performAll_agrees deskCalls (deskBackend.answer [])
    deskBackend (fun _ _ => rfl) hcalls hfresh 5 hsteps hrun
  refine ⟨_, hrun, hresults, hsettled ?_⟩
  rintro ⟨_ | _ | _ | i, hi⟩
  · rfl
  · rfl
  · rfl
  · omega

end InFlight

end SnapshotAnalytics

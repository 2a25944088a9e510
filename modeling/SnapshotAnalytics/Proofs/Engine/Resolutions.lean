import SnapshotAnalytics.Proofs.Engine.Fetching
import SnapshotAnalytics.Proofs.Report.Keys
import SnapshotAnalytics.Proofs.Report.Resolution

/-!
# Runs of resolutions

Days are resolved through the cache, one after the other, in any tables and directions, while entries
expire and the store fails or not. Each of them is given the snapshot that stands for it, so a day
that is itself the result of a resolution is given back. Only where an answer would be kept beyond the
last time that there is can a resolution crash instead.
-/

namespace SnapshotAnalytics

/-! ## §1 Runs -/

/-- A day that is to be resolved in a table, and the moments when this is done. -/
structure ResolutionStep where
  timing : Timing Id
  table : String
  direction : Direction
  target : Date

namespace ResolutionStep

/-- What is around a step: the moments are its own. -/
def within (s : Surroundings Id) (step : ResolutionStep) : Surroundings Id :=
  { s with timing := fun _ => step.timing }

/-- Resolve the day of a step. -/
def perform (e : Engine) (s : Surroundings Id) (step : ResolutionStep) :
    CacheM Id (Except (Halt AnalyticsError) Date) :=
  (e.resolveByName (step.within s) step.table step.direction step.target).run

/-- Resolve the days of steps, one after the other. -/
def performAll (e : Engine) (s : Surroundings Id) (steps : List ResolutionStep) :
    CacheM Id (List (Except (Halt AnalyticsError) Date)) :=
  steps.mapM (perform e s)

/-- To store the answer of a step would crash. -/
def MayCrash (e : Engine) (step : ResolutionStep) : Prop :=
  e.cache.enabled = true ∧ Moment.crashes step.timing.answered e.lifetimes.snapshot = true

/-- The result of a step is the snapshot for its day among the snapshots of its table, or a crash, but
that only where the answer cannot be stored. -/
def Exact (e : Engine) (days : String → Finset Date) (step : ResolutionStep)
    (result : Except (Halt AnalyticsError) Date) : Prop :=
  (∃ d, result = .ok d ∧ step.direction.Resolves (days step.table) step.target d) ∨
    result = .error .crash ∧ step.MayCrash e

end ResolutionStep

/-! ## §2 What is asked for -/

/-- The full key of a resolution determines the table, the direction and the day. -/
theorem Engine.eq_of_keyFor_resolutionOf_eq {e : Engine} (he : e.tables.Registered)
    {name name' : String} {t t' : TableSchema} {direction direction' : Direction}
    {target target' : Date} (ht : e.tables.table name = .ok t) (ht' : e.tables.table name' = .ok t')
    (h : e.cache.keyFor (e.resolutionOf t direction target) =
      e.cache.keyFor (e.resolutionOf t' direction' target')) :
    name = name' ∧ t = t' ∧ direction = direction' ∧ target = target' := by
  obtain ⟨hname, hchecked⟩ := he.of_table ht
  obtain ⟨hname', hchecked'⟩ := he.of_table ht'
  have hkeys : Resolution.key t direction target = Resolution.key t' direction' target' :=
    eq_of_keyFor_eq (Resolution.isPlain_key hchecked _ _) (Resolution.isPlain_key hchecked' _ _) h
  simp only [Resolution.key, CacheKey.resolution.injEq, hname, hname'] at hkeys
  obtain ⟨rfl, rfl, rfl⟩ := hkeys
  -- A table stands under its own name, so tables of the same name are the same.
  exact ⟨rfl, Checks.ok_unique ht ht', rfl, rfl⟩

namespace ResolutionStep

/-- The query of a step with the full key of its answer. -/
def asked (e : Engine) (t : TableSchema) (step : ResolutionStep) : String × Query :=
  (e.cache.keyFor (e.resolutionOf t step.direction step.target),
    (Resolution.select t step.direction step.target).query)

/-- What steps ask for, as far as they are for tables of the engine. -/
def askedBy (e : Engine) (steps : List ResolutionStep) : List (String × Query) :=
  steps.flatMap fun step =>
    match e.tables.table step.table with
    | .ok t => [step.asked e t]
    | .error _ => []

variable {e : Engine} {steps : List ResolutionStep}

theorem mem_askedBy {x : String × Query} :
    x ∈ askedBy e steps ↔ ∃ step ∈ steps, ∃ t, e.tables.table step.table = .ok t ∧ x = step.asked e t := by
  rw [askedBy, List.mem_flatMap]
  apply exists_congr
  intro step
  apply and_congr_right
  intro _
  cases e.tables.table step.table with
  | error _ => simp
  | ok t => simp

/-- Resolutions with the same full key ask for the same. -/
theorem query_eq_of_asked (he : e.tables.Registered) {step step' : ResolutionStep}
    {t t' : TableSchema} (ht : e.tables.table step.table = .ok t)
    (ht' : e.tables.table step'.table = .ok t') (h : (step.asked e t).1 = (step'.asked e t').1) :
    (step.asked e t).2 = (step'.asked e t').2 := by
  obtain ⟨-, htable, hdirection, htarget⟩ := Engine.eq_of_keyFor_resolutionOf_eq he ht ht' h
  rw [asked, asked, htable, hdirection, htarget]

end ResolutionStep

/-! ## §3 Exact resolutions -/

namespace ResolutionStep

variable {e : Engine} {s : Surroundings Id} {answer : Query → Except QueryError QueryResult}
  {days : String → Finset Date} {asked : List (String × Query)} {steps : List ResolutionStep}
  {st : CacheState}

/-- One step is exact and keeps the store faithful. -/
theorem perform_exact (hb : s.backend.Answers answer) (hc : Consistent answer asked)
    (hs : Faithful answer asked st) {step : ResolutionStep} {t : TableSchema}
    (ht : e.tables.table step.table = .ok t) (hasked : step.asked e t ∈ asked)
    (hheld : t.HeldIn answer (days step.table))
    (hdays : ∀ d ∈ days step.table, d.HasFourDigitYear ∧ d ≠ .epoch)
    (htarget : step.target.HasFourDigitYear) :
    step.Exact e days ((step.perform e s).run st).1 ∧
      Faithful answer asked ((step.perform e s).run st).2 := by
  obtain ⟨r, hr, _, hresolves⟩ := Resolution.resolves_snapshot hheld hdays htarget step.direction
  let f := e.resolutionOf t step.direction step.target
  obtain ⟨houtcome, hfaithful⟩ := Cache.query_faithful (f := f) hb hc hs hasked step.timing
  have hrun : (step.perform e s).run st =
      (e.fetch (step.within s) .snapshot f >>= fun r =>
        pure (Resolution.snapshot step.target r) : EngineM Id Date).run.run st := by
    rw [perform, Engine.resolveByName, ht]
    rfl
  rw [hrun, CacheM.run_bind, Engine.fetch, Engine.adapt_run]
  have hquery : (step.within s).backend = s.backend ∧ (step.within s).timing .snapshot = step.timing :=
    ⟨rfl, rfl⟩
  rw [hquery.1, hquery.2]
  rcases hstep : (e.cache.query s.backend step.timing f).run.run st with ⟨result, st'⟩
  rw [hstep] at houtcome hfaithful
  have hanswer : answer f.query = .ok r := hr
  rw [Cache.outcome, hanswer] at houtcome
  -- The answer is given unless it had to be stored and that crashed.
  dsimp only at houtcome
  split at houtcome <;> subst houtcome
  · rename_i hcrash
    rw [Bool.and_eq_true, Bool.and_eq_true] at hcrash
    exact ⟨Or.inr ⟨rfl, hcrash.1.2, hcrash.2⟩, hfaithful⟩
  · exact ⟨Or.inl ⟨_, rfl, hresolves⟩, hfaithful⟩

/-- A run is exact in each of its steps. -/
theorem performAll_exact (hb : s.backend.Answers answer) (hc : Consistent answer asked)
    (hasked : ∀ step ∈ steps, ∃ t, e.tables.table step.table = .ok t ∧ step.asked e t ∈ asked ∧
      t.HeldIn answer (days step.table))
    (hdays : ∀ name, ∀ d ∈ days name, d.HasFourDigitYear ∧ d ≠ .epoch)
    (htargets : ∀ step ∈ steps, step.target.HasFourDigitYear) (hs : Faithful answer asked st) :
    List.Forall₂ (Exact e days) steps ((performAll e s steps).run st).1 := by
  -- A step leaves a faithful store to the steps behind it.
  induction steps generalizing st with
  | nil => exact .nil
  | cons step steps ih =>
    obtain ⟨⟨t, ht, hmem, hheld⟩, hasked⟩ := List.forall_mem_cons.mp hasked
    obtain ⟨htarget, htargets⟩ := List.forall_mem_cons.mp htargets
    have hstep := perform_exact hb hc hs ht hmem hheld (hdays step.table) htarget
    rw [performAll, List.mapM_cons]
    exact .cons hstep.1 (ih hasked htargets hstep.2)

/-- **Resolution is exact throughout a run**: with a warehouse that holds snapshots of the tables and
from a store that is empty or holds nothing readable, every day of a run is given the snapshot that
stands for it. So a day that a step of the run was given is given back by every step of the run that
resolves it in the same table and direction. A step crashes only where its answer cannot be stored. -/
theorem results_exact (e : Engine) (he : e.tables.Registered) (s : Surroundings Id)
    (answer : Query → Except QueryError QueryResult) (hb : s.backend.Answers answer)
    (days : String → Finset Date)
    (hdays : ∀ name, ∀ d ∈ days name, d.HasFourDigitYear ∧ d ≠ .epoch)
    (hheld : ∀ name t, e.tables.table name = .ok t → t.HeldIn answer (days name))
    (steps : List ResolutionStep)
    (hsteps : ∀ step ∈ steps,
      step.target.HasFourDigitYear ∧ ∃ t, e.tables.table step.table = .ok t)
    (st : CacheState)
    (hstart : ∀ entry ∈ st.store.entries, QueryResult.decode? entry.2.value = none) :
    let results := ((performAll e s steps).run st).1
    List.Forall₂ (Exact e days) steps results ∧
      ∀ x ∈ steps.zip results, ∀ y ∈ steps.zip results, x.1.table = y.1.table →
        x.1.direction = y.1.direction → x.2 = .ok y.1.target →
          y.2 = .ok y.1.target ∨ y.2 = .error .crash ∧ y.1.MayCrash e := by
  intro results
  -- One key stands for one look-up, and what a look-up finds is read back from its text.
  have hconsistent : Consistent answer (askedBy e steps) := by
    constructor
    · intro x hx y hy hkey
      obtain ⟨step, _, t, ht, rfl⟩ := mem_askedBy.mp hx
      obtain ⟨step', _, t', ht', rfl⟩ := mem_askedBy.mp hy
      exact query_eq_of_asked he ht ht' hkey
    · intro x hx r r' hr hread
      obtain ⟨step, hstep, t, ht, rfl⟩ := mem_askedBy.mp hx
      obtain ⟨found, hfound, hback, _⟩ := Resolution.resolves_snapshot (hheld _ t ht)
        (hdays step.table) (hsteps step hstep).1 step.direction
      obtain rfl := Checks.ok_unique hfound hr
      rw [hback, Option.some.injEq] at hread
      exact hread.symm
  have hexact : List.Forall₂ (Exact e days) steps results := by
    refine performAll_exact hb hconsistent ?_ hdays (fun step h => (hsteps step h).1)
      (.of_unreadable hstart)
    intro step hstep
    obtain ⟨t, ht⟩ := (hsteps step hstep).2
    exact ⟨t, ht, mem_askedBy.mpr ⟨step, hstep, t, ht, rfl⟩, hheld _ t ht⟩
  refine ⟨hexact, ?_⟩
  rintro ⟨step, result⟩ hx ⟨step', result'⟩ hy htable hdirection rfl
  -- A day that was given is a snapshot, and so it stands for itself.
  rcases List.forall₂_zip hexact hx with ⟨d, hd, hresolves⟩ | ⟨hcrash, -⟩
  · rcases List.forall₂_zip hexact hy with ⟨d', rfl, hresolves'⟩ | hcrash'
    · simp only [Except.ok.injEq] at hd htable hdirection
      subst hd
      rw [htable, hdirection] at hresolves
      exact Or.inl (congrArg Except.ok (hresolves.again hresolves'))
    · exact Or.inr hcrash'
  · cases hcrash

/-! Two tables, one for each encoding. Days between two snapshots, before the first and after the last
one are resolved in both directions, some of them more than once, over a store with an unreadable
entry. -/

/-- Trades, with compact dates. -/
def heldTrades : TableSchema :=
  .ofDateColumn "trades" "day" .compact

/-- Prices, with dates. -/
def heldPrices : TableSchema :=
  .ofDateColumn "market.prices" "as_of" .calendar

/-- The snapshots of both tables, in order. -/
def heldDays (name : String) : List Date :=
  if name = "trades" then [⟨999, 12, 31, by decide⟩, ⟨2024, 1, 31, by decide⟩]
  else if name = "market.prices" then [⟨2024, 2, 29, by decide⟩]
  else []

/-- What can be asked of both tables. -/
def heldQueries : List (TableSchema × String × String) :=
  [heldTrades, heldPrices].flatMap fun t =>
    ["maxOrNull", "minOrNull"].flatMap fun function =>
      ["<=", ">="].map fun symbol => (t, function, symbol)

/-- A warehouse that holds both tables; every other query is refused. -/
def heldAnswer (q : Query) : Except QueryError QueryResult :=
  match heldQueries.find? fun x => (x.1.extremeQuery x.2.1 x.2.2 "").sql == q.sql, q.parameters with
  | some (t, function, symbol), [p] =>
    .ok (.ofRows [⟨"snapshot", .string, true⟩]
      [[t.extremeAmong (heldDays t.name) function symbol p.value]] 7)
  | _, _ => .error (.execution "no such table")

theorem heldDays_ok (name : String) :
    (heldDays name).Pairwise (· ≤ ·) ∧ ∀ d ∈ heldDays name, d.HasFourDigitYear ∧ d ≠ .epoch := by
  unfold heldDays
  split
  · decide
  · split
    · decide
    · simp

theorem held_heldAnswer {t : TableSchema} (ht : t ∈ [heldTrades, heldPrices]) :
    t.HeldIn heldAnswer (heldDays t.name).toFinset := by
  intro function hfunction symbol hsymbol d _
  have hmem : (t, function, symbol) ∈ heldQueries := by
    simp only [heldQueries, List.mem_flatMap, List.mem_map]
    exact ⟨t, ht, function, hfunction, symbol, hsymbol, rfl⟩
  -- The texts of the look-ups are told apart, so each is answered by its own table and direction.
  have hfound : ∀ x ∈ heldQueries, (heldQueries.find? fun y =>
      (y.1.extremeQuery y.2.1 y.2.2 "").sql == (x.1.extremeQuery x.2.1 x.2.2 "").sql) = some x := by
    decide +kernel
  refine ⟨t.extremeAmong (heldDays t.name) function symbol (t.encoding.encode d), .string, true, 7,
    by decide, ?_, ?_⟩
  · have hfirst := hfound _ hmem
    have hsql : (t.extremeQuery function symbol (t.encoding.encode d)).sql =
        (t.extremeQuery function symbol "").sql := rfl
    rw [heldAnswer, hsql, hfirst]
    rfl
  · exact TableSchema.isExtreme_extremeAmong (fun d hd => ((heldDays_ok _).2 d hd).1)
      (heldDays_ok _).1 hfunction

/-- An engine over both tables. -/
def heldEngine : Engine :=
  ⟨⟨"v", true⟩, [("market.prices", heldPrices), ("trades", heldTrades)], .default⟩

theorem registered_held : heldEngine.tables.Registered :=
  .register (.register .empty (.ofDateColumn ..)
    (show TableRegistry.register [] heldTrades = .ok [("trades", heldTrades)] by decide +kernel))
    (.ofDateColumn ..)
    (show TableRegistry.register [("trades", heldTrades)] heldPrices = .ok heldEngine.tables by
      decide +kernel)

theorem held_of_table {name : String} {t : TableSchema} (ht : heldEngine.tables.table name = .ok t) :
    t.HeldIn heldAnswer (heldDays name).toFinset := by
  -- There are two tables, and both are held.
  have hmem : t ∈ [heldTrades, heldPrices] := by
    unfold TableRegistry.table at ht
    split at ht
    · rename_i found hfound
      have hentry := Keyed.mem_of_find? hfound
      cases ht
      simp only [heldEngine, List.mem_cons, Prod.mk.injEq, List.not_mem_nil, or_false] at hentry
      rcases hentry with ⟨_, rfl⟩ | ⟨_, rfl⟩ <;> simp
    · cases ht
  rw [← (registered_held.of_table ht).1]
  exact held_heldAnswer hmem

def heldSurroundings : Surroundings Id :=
  .calm ⟨"held", fun _ => heldAnswer, .ok ()⟩ .inTurn .epoch

/-- The run. Before the last step all answers have expired, and then the store refuses to be read. -/
def heldSteps : List ResolutionStep :=
  let at_ (now : Nat) : Timing Id := ⟨Moment.calm now, Moment.calm (now + 5)⟩
  let late : Timing Id := ⟨⟨nanoseconds 400, lastTime, some "refused", none, none⟩,
    Moment.calm (nanoseconds 401)⟩
  [⟨at_ 0, "trades", .backward, ⟨2024, 1, 30, by decide⟩⟩,
    ⟨at_ 10, "trades", .forward, ⟨2024, 1, 30, by decide⟩⟩,
    ⟨at_ 20, "trades", .backward, ⟨999, 12, 31, by decide⟩⟩,
    ⟨at_ 30, "trades", .backward, ⟨999, 12, 30, by decide⟩⟩,
    ⟨at_ 40, "market.prices", .forward, .epoch⟩,
    ⟨late, "trades", .backward, ⟨2024, 1, 30, by decide⟩⟩]

theorem results_exact_held :
    let days (name : String) : Finset Date := (heldDays name).toFinset
    let results := ((performAll heldEngine heldSurroundings heldSteps).run
      ⟨⟨[("v:snapshot:trades:backward:2024-01-30", ⟨"not json", 100⟩)], 0⟩, .zero, []⟩).1
    (∀ step ∈ heldSteps, ¬ step.MayCrash heldEngine) ∧
      List.Forall₂ (Exact heldEngine days) heldSteps results ∧
      ∀ x ∈ heldSteps.zip results, ∀ y ∈ heldSteps.zip results, x.1.table = y.1.table →
        x.1.direction = y.1.direction → x.2 = .ok y.1.target →
          y.2 = .ok y.1.target ∨ y.2 = .error .crash ∧ y.1.MayCrash heldEngine := by
  constructor
  · -- No write takes place so late that the lifetime of a snapshot cannot be added.
    rintro step hstep ⟨-, hcrash⟩
    have hnone : ∀ step ∈ heldSteps,
        Moment.crashes step.timing.answered heldEngine.lifetimes.snapshot = false := by decide
    exact Bool.false_ne_true ((hnone step hstep).symm.trans hcrash)
  apply results_exact heldEngine registered_held heldSurroundings heldAnswer (fun _ _ => rfl)
  · intro name d hd
    exact (heldDays_ok name).2 d (List.mem_toFinset.mp hd)
  · intro name t ht
    exact held_of_table ht
  · simp only [heldSteps, List.forall_mem_cons, List.not_mem_nil, false_implies, implies_true,
      and_true]
    exact ⟨⟨by decide, _, rfl⟩, ⟨by decide, _, rfl⟩, ⟨by decide, _, rfl⟩, ⟨by decide, _, rfl⟩,
      ⟨by decide, _, rfl⟩, ⟨by decide, _, rfl⟩⟩
  · intro entry hentry
    rw [List.mem_singleton.mp hentry, ← Option.isNone_iff_eq_none]
    decide +kernel

end ResolutionStep

end SnapshotAnalytics

import SnapshotAnalytics.Proofs.Cache.ReadThrough

/-!
# What a cache holds

Whatever can be read from the store was an answer of the backend once, stored under the key of its
query. So a property of answers under their keys is kept by every fetch whose answers have it, and all
that is fetched has it, found or sent. Work is put together from fetches: what each step comes to is
known to the next one, and a failing step is the end of it.
-/

namespace SnapshotAnalytics

variable {ε ε' α β : Type} {allowed : String → QueryResult → Prop}

/-- Everything that can be read from the store is allowed under its key. -/
def CacheState.HoldsOnly (allowed : String → QueryResult → Prop) (st : CacheState) : Prop :=
  ∀ e ∈ st.store.entries, ∀ r, QueryResult.decode? e.2.value = some r → allowed e.1 r

/-- All answers to a query are allowed under its key, as they arrive and as they are read back. -/
def Cache.Admits (c : Cache) (b : Backend Id) (allowed : String → QueryResult → Prop) (f : Fetch) :
    Prop :=
  ∀ sent r, b.answer sent f.query = .ok r →
    allowed (c.keyFor f) r ∧
      ∀ r', QueryResult.decode? r.encode = some r' → allowed (c.keyFor f) r'

/-- An error with which the backend answers one of the given queries, after whatever was sent. -/
def Backend.FailsOn (b : Backend Id) (queries : List Query) (cause : QueryError) : Prop :=
  ∃ sent, ∃ q ∈ queries, b.answer sent q = .error cause

theorem Backend.FailsOn.mono {b : Backend Id} {queries queries' : List Query} {cause : QueryError}
    (h : b.FailsOn queries cause) (hsub : queries ⊆ queries') : b.FailsOn queries' cause := by
  obtain ⟨sent, q, hq, hanswer⟩ := h
  exact ⟨sent, q, hsub hq, hanswer⟩

/-- How work with the given queries can end early: the backend answers one of them with an error, or to
store the answer to one of them crashes. Each query comes with the moment at which it is answered. -/
def Cache.Halts (c : Cache) (b : Backend Id) (asked : List (Moment × Fetch)) : Halt QueryError → Prop
  | .error cause => b.FailsOn (asked.map (·.2.query)) cause
  | .crash => c.enabled = true ∧ ∃ x ∈ asked, x.1.crashes x.2.ttl = true

theorem Cache.Halts.mono {c : Cache} {b : Backend Id} {asked asked' : List (Moment × Fetch)}
    {halt : Halt QueryError} (h : c.Halts b asked halt) (hsub : asked ⊆ asked') :
    c.Halts b asked' halt := by
  cases halt with
  | error cause => exact Backend.FailsOn.mono h (List.map_subset _ hsub)
  | crash =>
    obtain ⟨henabled, x, hx, hcrash⟩ := h
    exact ⟨henabled, x, hsub hx, hcrash⟩

/-- From a store that holds only what is allowed, work leaves such a store behind, and comes to a result
of which `P` holds or to an error of which `E` does. -/
def CacheM.Yields (allowed : String → QueryResult → Prop) (P : α → Prop) (E : ε → Prop)
    (x : ExceptT ε (CacheM Id) α) : Prop :=
  ∀ st : CacheState, st.HoldsOnly allowed →
    (x.run.run st).2.HoldsOnly allowed ∧
      match (x.run.run st).1 with
      | .ok a => P a
      | .error err => E err

namespace CacheState.HoldsOnly

variable {st st' : CacheState}

theorem of_unreadable (h : ∀ e ∈ st.store.entries, QueryResult.decode? e.2.value = none) :
    st.HoldsOnly allowed := by
  intro e he r hr
  rw [h e he] at hr
  cases hr

theorem of_subset (hst : st.HoldsOnly allowed)
    (hsub : ∀ e ∈ st'.store.entries, e ∈ st.store.entries) : st'.HoldsOnly allowed :=
  fun e he => hst e (hsub e he)

end CacheState.HoldsOnly

namespace CacheM.Yields

variable {P P' : α → Prop} {Q : β → Prop} {E E' : ε → Prop} {x : ExceptT ε (CacheM Id) α}
  {k : α → ExceptT ε (CacheM Id) β}

/-! ## §1 Sequences -/

theorem pure {a : α} (h : P a) : Yields allowed P E (Pure.pure a : ExceptT ε (CacheM Id) α) :=
  fun _ hst => ⟨hst, h⟩

theorem bind (hx : Yields allowed P E x) (hk : ∀ a, P a → Yields allowed Q E (k a)) :
    Yields allowed Q E (x >>= k) := by
  intro st hst
  obtain ⟨hst', hresult⟩ := hx st hst
  rw [CacheM.run_bind]
  rcases hrun : x.run.run st with ⟨err | a, st'⟩ <;> rw [hrun] at hst' hresult
  · exact ⟨hst', hresult⟩
  · exact hk a hresult st' hst'

theorem map {f : α → β} (hx : Yields allowed P E x) (hf : ∀ a, P a → Q (f a)) :
    Yields allowed Q E (do return f (← x)) :=
  hx.bind fun a ha => pure (hf a ha)

theorem imp (hx : Yields allowed P E x) (hP : ∀ a, P a → P' a) (hE : ∀ err, E err → E' err) :
    Yields allowed P' E' x := by
  intro st hst
  obtain ⟨hst', hresult⟩ := hx st hst
  rcases hrun : x.run.run st with ⟨err | a, st'⟩ <;> rw [hrun] at hst' hresult
  · exact ⟨hst', hE err hresult⟩
  · exact ⟨hst', hP a hresult⟩

theorem adapt {E : ε' → Prop} {f : ε → ε'} (hx : Yields allowed P (fun err => E (f err)) x) :
    Yields allowed P E (ExceptT.adapt f x) := by
  intro st hst
  obtain ⟨hst', hresult⟩ := hx st hst
  have hrun : (ExceptT.adapt f x).run.run st =
      ((x.run.run st).1.mapError f, (x.run.run st).2) := rfl
  rw [hrun]
  refine ⟨hst', ?_⟩
  rcases hx : (x.run.run st).1 with err | a <;> rw [hx] at hresult <;> exact hresult

/-! ## §2 Queries -/

variable {c : Cache} {b : Backend Id} {t answered : Moment} {f g : Fetch}

/-- What is looked up first is allowed, if it is found. -/
theorem lookup {k : Option QueryResult → ExceptT ε (CacheM Id) β}
    (hk : ∀ found, (∀ r, found = some r → allowed (c.keyFor f) r) → Yields allowed Q E (k found)) :
    Yields allowed Q E (modifyGet (c.start t f).run >>= k) := by
  intro st hst
  refine hk ((c.start t f).run st).1 (fun r hr => ?_) ((c.start t f).run st).2
    (hst.of_subset fun _ he => Cache.mem_of_mem_start he)
  obtain ⟨stored, hmem, hread⟩ := Cache.mem_of_start hr
  exact hst _ hmem r hread

theorem finish (hf : c.Admits b allowed f) {found : Option QueryResult}
    (hfound : ∀ r, found = some r → allowed (c.keyFor f) r) :
    Yields allowed (allowed (c.keyFor f)) (c.Halts b [(answered, f)]) (c.finish b answered f found) := by
  intro st hst
  cases found with
  | some r =>
    rw [Cache.finish_run_some]
    exact ⟨hst, hfound r rfl⟩
  | none =>
    rw [Cache.finish_run_none]
    cases hanswer : b.answer st.sent f.query with
    | error cause => exact ⟨hst, st.sent, f.query, List.mem_singleton_self _, hanswer⟩
    | ok r =>
      obtain ⟨hallowed, hback⟩ := hf st.sent r hanswer
      cases hc : c.enabled with
      | false => exact ⟨hst, hallowed⟩
      | true =>
        constructor
        · intro e he r' hread
          -- What is in the store was there before or is the answer that was just stored.
          rcases Cache.mem_of_mem_save he with ⟨hkey, hvalue⟩ | hold
          · rw [hkey]
            exact hback r' (hvalue ▸ hread)
          · exact hst e hold r' hread
        · cases hcrash : answered.crashes f.ttl with
          | false => exact hallowed
          | true => exact ⟨hc, _, List.mem_singleton_self _, hcrash⟩

theorem query (hf : c.Admits b allowed f) (timing : Timing Id) :
    Yields allowed (allowed (c.keyFor f)) (c.Halts b [(timing.answered, f)]) (c.query b timing f) := by
  rw [Cache.query_eq]
  exact lookup fun _ hfound => finish hf hfound

theorem queryPair (hf : c.Admits b allowed f) (hg : c.Admits b allowed g) (timing timing' : Timing Id)
    (pacing : Cache.Pacing) :
    Yields allowed (fun found => allowed (c.keyFor f) found.1 ∧ allowed (c.keyFor g) found.2)
      (c.Halts b [(timing.answered, f), (timing'.answered, g)])
      (c.queryPair b timing timing' pacing f g) := by
  have hfirst (halt : Halt QueryError) (h : c.Halts b [(timing.answered, f)] halt) :
      c.Halts b [(timing.answered, f), (timing'.answered, g)] halt := h.mono (by simp)
  have hsecond (halt : Halt QueryError) (h : c.Halts b [(timing'.answered, g)] halt) :
      c.Halts b [(timing.answered, f), (timing'.answered, g)] halt := h.mono (by simp)
  -- Looked up together, both are looked up before either is sent.
  cases pacing with
  | inTurn =>
    refine ((query hf timing).imp (fun _ h => h) hfirst).bind fun r hr => ?_
    exact ((query hg timing').imp (fun _ h => h) hsecond).map fun r' hr' => ⟨hr, hr'⟩
  | together =>
    rw [Cache.queryPair_together]
    refine lookup fun found hfound => lookup fun found' hfound' => ?_
    refine ((finish hf hfound).imp (fun _ h => h) hfirst).bind fun r hr => ?_
    exact ((finish hg hfound').imp (fun _ h => h) hsecond).map fun r' hr' => ⟨hr, hr'⟩

end CacheM.Yields

end SnapshotAnalytics

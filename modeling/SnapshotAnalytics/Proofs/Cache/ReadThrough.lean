import SnapshotAnalytics.Cache.ReadThrough
import SnapshotAnalytics.Proofs.Cache.Expiry

/-!
# Single steps of a cache

What each step of reading through the cache gives back and what it leaves behind, as equations on the
state. A longer operation is opened at its binds by `CacheM.run_bind`, so nothing has to be unfolded
that has an equation here. Below the equations stands what a look-up finds in a store that can be read,
and where the entries of the store come from.
-/

namespace SnapshotAnalytics

/-- The answer that is shown under a key, if its text can be read. -/
def CacheState.known (now : Nat) (key : String) (s : CacheState) : Option QueryResult :=
  (s.store.shown now key).bind QueryResult.decode?

/-- What a failing operation did to the cache remains, and nothing behind it happens. -/
theorem CacheM.run_bind {ε α β : Type} (x : ExceptT ε (CacheM Id) α)
    (k : α → ExceptT ε (CacheM Id) β) (s : CacheState) :
    (x >>= k).run.run s = match x.run.run s with
      | (.ok a, s') => (k a).run.run s'
      | (.error e, s') => (.error e, s') := by
  -- By definition the result of `x` decides how its state is used.
  show (match (x s).1 with
    | .ok a => k a
    | .error e => StateT.pure (.error e)) (x s).2 = _
  rcases hx : x s with ⟨_ | _, s'⟩ <;> simp only [ExceptT.run, StateT.run, hx]
  rfl

/-- A moment that is found out without effects is given at once. -/
theorem CacheM.liftM_bind {ε α β : Type} (x : Id α) (k : α → ExceptT ε (CacheM Id) β) :
    (liftM x : ExceptT ε (CacheM Id) α) >>= k = k x :=
  rfl

namespace Cache

variable {c : Cache} {t : Moment} {f : Fetch} {s : CacheState} {r : QueryResult} {key : String}
  {ttl : Nat} {e : String × Stored String}

/-! ## §1 Equations -/

theorem lookup_run (t : Moment) (key : String) (s : CacheState) :
    (lookup t key).run s = match t.readFault with
      | some _ =>
        (none, { s with counters := { s.counters with storeErrors := s.counters.storeErrors + 1 } })
      | none =>
        ((s.store.get t.now key).1.bind QueryResult.decode?,
          { s with store := (s.store.get t.now key).2 }) := by
  unfold lookup
  cases t.readFault <;> rfl

theorem save_run (t : Moment) (key : String) (ttl : Nat) (r : QueryResult) (s : CacheState) :
    (save t key ttl r).run s = match t.writeFault with
      | some _ =>
        ((), { s with counters := { s.counters with storeErrors := s.counters.storeErrors + 1 } })
      | none =>
        ((), { s with store := s.store.set t.horizon t.now key r.encode ttl }) := by
  unfold save
  cases t.writeFault <;> rfl

theorem send_run (b : Backend Id) (q : Query) (s : CacheState) :
    (send b q).run.run s =
      (Except.mapError .error (b.answer s.sent q), { s with sent := s.sent ++ [q] }) := by
  have hsend : (send b q).run.run s =
      (match b.answer s.sent q with
        | .ok r => return r
        | .error e => throw (.error e) :
        ExceptT (Halt QueryError) (CacheM Id) QueryResult).run.run
          { s with sent := s.sent ++ [q] } := rfl
  rw [hsend]
  cases b.answer s.sent q <;> rfl

theorem start_run (c : Cache) (t : Moment) (f : Fetch) (s : CacheState) :
    (c.start t f).run s =
      if c.enabled then
        match (lookup t (c.keyFor f)).run s with
        | (some r, s') =>
          (some r, { s' with counters := { s'.counters with hits := s'.counters.hits + 1 } })
        | (none, s') =>
          (none, { s' with counters := { s'.counters with misses := s'.counters.misses + 1 } })
      else (none, s) := by
  unfold start
  cases c.enabled with
  | false => rfl
  | true =>
    rw [if_pos rfl, if_pos rfl, StateT.run_bind]
    rcases (lookup t (c.keyFor f)).run s with ⟨_ | _, s'⟩ <;> rfl

theorem finish_run_some (c : Cache) (b : Backend Id) (answered : Moment) (f : Fetch)
    (r : QueryResult) (s : CacheState) :
    (c.finish b answered f (some r)).run.run s = (.ok r, s) :=
  rfl

theorem finish_run_none (c : Cache) (b : Backend Id) (answered : Moment) (f : Fetch)
    (s : CacheState) :
    (c.finish b answered f none).run.run s =
      let s' := { s with sent := s.sent ++ [f.query] }
      match b.answer s.sent f.query with
      | .error e => (.error (.error e), s')
      | .ok r =>
        if c.enabled then
          (if answered.crashes f.ttl then .error .crash else .ok r,
            ((save answered (c.keyFor f) f.ttl r).run s').2)
        else (.ok r, s') := by
  unfold finish
  rw [CacheM.run_bind, send_run]
  cases b.answer s.sent f.query with
  | error e => rfl
  | ok r =>
    cases c.enabled with
    | false => rfl
    | true =>
      -- What the write does to the cache is done before it may crash.
      show (do
        if answered.crashes f.ttl then throw .crash
        return r : ExceptT (Halt QueryError) (CacheM Id) QueryResult).run.run
          ((save answered (c.keyFor f) f.ttl r).run
            { s with sent := s.sent ++ [f.query] }).2 = _
      cases answered.crashes f.ttl <;> rfl

/-- A query is a look-up and what follows it. -/
theorem query_eq (c : Cache) (b : Backend Id) (timing : Timing Id) (f : Fetch) :
    c.query b timing f = modifyGet (c.start timing.asked f).run >>= c.finish b timing.answered f :=
  CacheM.liftM_bind timing.asked _

theorem query_run (c : Cache) (b : Backend Id) (timing : Timing Id) (f : Fetch) (s : CacheState) :
    (c.query b timing f).run.run s =
      (c.finish b timing.answered f ((c.start timing.asked f).run s).1).run.run
        ((c.start timing.asked f).run s).2 :=
  rfl

/-- Two queries one after the other. -/
theorem queryPair_inTurn (c : Cache) (b : Backend Id) (timing timing' : Timing Id) (f g : Fetch) :
    c.queryPair b timing timing' .inTurn f g = do
      let r ← c.query b timing f
      return (r, ← c.query b timing' g) :=
  rfl

/-- Two queries that are looked up before either is finished. -/
theorem queryPair_together (c : Cache) (b : Backend Id) (timing timing' : Timing Id) (f g : Fetch) :
    c.queryPair b timing timing' .together f g = do
      let found ← modifyGet (c.start timing.asked f).run
      let found' ← modifyGet (c.start timing'.asked g).run
      let r ← c.finish b timing.answered f found
      return (r, ← c.finish b timing'.answered g found') := by
  refine (CacheM.liftM_bind timing.asked _).trans (bind_congr fun found => ?_)
  exact CacheM.liftM_bind timing'.asked _

theorem queryPair_run_together (c : Cache) (b : Backend Id) (timing timing' : Timing Id) (f g : Fetch)
    (s : CacheState) :
    (c.queryPair b timing timing' .together f g).run.run s =
      (do
        let r ← c.finish b timing.answered f ((c.start timing.asked f).run s).1
        let r' ← c.finish b timing'.answered g
          ((c.start timing'.asked g).run ((c.start timing.asked f).run s).2).1
        return (r, r') : ExceptT (Halt QueryError) (CacheM Id) _).run.run
          ((c.start timing'.asked g).run ((c.start timing.asked f).run s).2).2 := by
  rw [queryPair_together]
  rfl

theorem invalidate_run (c : Cache) (t : Moment) (pattern : Option String) (s : CacheState) :
    (c.invalidate (m := Id) t pattern).run.run s = match t.deleteFault with
      | some reason => (.error (.unavailable reason), s)
      | none =>
        match s.store.deleteMatching t.now (c.fullPattern pattern) with
        | .error e => (.error (.badPattern (c.fullPattern pattern) e), s)
        | .ok (deleted, store) => (.ok deleted, { s with store := store }) := by
  unfold invalidate
  cases t.deleteFault with
  | some reason => rfl
  | none =>
    rw [CacheM.run_bind]
    -- The bind is opened; what is left is the state that the two continuations leave.
    show ((match s.store.deleteMatching t.now (c.fullPattern pattern) with
      | .error e => throw (.badPattern (c.fullPattern pattern) e)
      | .ok (deleted, store) => do
        set { s with store := store }
        return deleted : ExceptT StoreError (CacheM Id) Nat)).run.run s = _
    rcases s.store.deleteMatching t.now (c.fullPattern pattern) with e | ⟨deleted, store⟩ <;> rfl

/-- In a store that can be read, what is known is found. -/
theorem start_run_readable (hc : c.enabled = true) (ht : t.readFault = none) (f : Fetch)
    (s : CacheState) :
    (c.start t f).run s = (s.known t.now (c.keyFor f),
      { s with
        store := (s.store.get t.now (c.keyFor f)).2
        counters :=
          if (s.known t.now (c.keyFor f)).isSome then
            { s.counters with hits := s.counters.hits + 1 }
          else { s.counters with misses := s.counters.misses + 1 } }) := by
  rw [start_run, if_pos hc, lookup_run, ht, Store.get_fst]
  show (match ((s.known t.now (c.keyFor f), _) : Option QueryResult × CacheState) with
    | (some r, s') => _
    | (none, s') => _) = _
  cases s.known t.now (c.keyFor f) <;> rfl

/-! ## §2 Where entries come from -/

/-- An answer that is found was stored under the full key of the query. -/
theorem mem_of_start (h : ((c.start t f).run s).1 = some r) :
    ∃ stored, (c.keyFor f, stored) ∈ s.store.entries ∧
      QueryResult.decode? stored.value = some r := by
  rw [start_run, lookup_run] at h
  -- Something is found only by a cache that is used, in a store that can be read, under a key whose
  -- text can be decoded.
  cases hc : c.enabled with
  | false => simp [hc] at h
  | true =>
    cases ht : t.readFault with
    | some reason => simp [hc, ht] at h
    | none =>
      cases hget : (s.store.get t.now (c.keyFor f)).1 with
      | none => simp [hc, ht, hget] at h
      | some text =>
        obtain ⟨stored, hmem, hvalue⟩ := Store.mem_of_get hget
        refine ⟨stored, hmem, ?_⟩
        rw [hvalue]
        cases hd : QueryResult.decode? text with
        | none => simp [hc, ht, hget, hd] at h
        | some r' => simpa [hc, ht, hget, hd] using h

/-- Looking an answer up brings nothing in. -/
theorem mem_of_mem_start (h : e ∈ ((c.start t f).run s).2.store.entries) :
    e ∈ s.store.entries := by
  have hlookup (he : e ∈ ((lookup t (c.keyFor f)).run s).2.store.entries) :
      e ∈ s.store.entries := by
    rw [lookup_run] at he
    split at he
    · exact he
    · exact Store.mem_of_mem_get he
  -- Hits and misses are counted beside the store, which is that of the look-up.
  rw [start_run] at h
  split at h
  · split at h <;> rename_i hrun <;> exact hlookup (by rw [hrun]; exact h)
  · exact h

/-- Storing an answer brings in its text under the given key. -/
theorem mem_of_mem_save (h : e ∈ ((save t key ttl r).run s).2.store.entries) :
    (e.1 = key ∧ e.2.value = r.encode) ∨ e ∈ s.store.entries := by
  rw [save_run] at h
  split at h
  · exact Or.inr h
  · rcases Store.mem_of_mem_set h with rfl | hold
    · exact Or.inl ⟨rfl, rfl⟩
    · exact Or.inr hold

/-- Removing answers brings nothing in. -/
theorem mem_of_mem_invalidate {pattern : Option String}
    (h : e ∈ ((c.invalidate (m := Id) t pattern).run.run s).2.store.entries) :
    e ∈ s.store.entries := by
  rw [invalidate_run] at h
  split at h
  · exact h
  · split at h
    · exact h
    · rename_i hdel
      exact Store.mem_of_mem_deleteMatching hdel h

end Cache

end SnapshotAnalytics

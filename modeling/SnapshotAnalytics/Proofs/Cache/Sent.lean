import SnapshotAnalytics.Proofs.Cache.ReadThrough
import SnapshotAnalytics.Proofs.Query.Blanks

/-!
# Which queries are sent

What an operation can send is announced as a list of forms. It sends queries of these forms, in this
order, and leaves out the ones whose answers are stored. When the cache is not used and the operation
succeeds, nothing is left out. Operations in sequence send what the first one sends and then what the
second one does.
-/

namespace SnapshotAnalytics

variable {ε ε' α β : Type}

/-- An operation sends queries of the given forms at most, in the given order, and all of them when
the cache is not used and the operation succeeds. What was sent before it stays. -/
def Cache.Sends (c : Cache) (forms : List QueryForm) (x : ExceptT ε (CacheM Id) α) : Prop :=
  ∀ st : CacheState, ∃ new : List Query,
    (x.run.run st).2.sent = st.sent ++ new ∧
      (new.map Query.form).Sublist forms ∧
      (c.enabled = false → ∀ a, (x.run.run st).1 = .ok a → new.map Query.form = forms)

namespace Cache

/-! ## §1 Steps that send nothing -/

theorem sent_lookup (t : Moment) (key : String) (st : CacheState) :
    ((lookup t key).run st).2.sent = st.sent := by
  rw [lookup_run]
  cases t.readFault <;> rfl

theorem sent_start (c : Cache) (t : Moment) (f : Fetch) (st : CacheState) :
    ((c.start t f).run st).2.sent = st.sent := by
  rw [start_run, ← sent_lookup t (c.keyFor f) st]
  cases c.enabled with
  | false => simp [sent_lookup]
  | true => rcases (lookup t (c.keyFor f)).run st with ⟨_ | r, st'⟩ <;> rfl

theorem sent_save (t : Moment) (key : String) (ttl : Nat) (r : QueryResult) (st : CacheState) :
    ((save t key ttl r).run st).2.sent = st.sent := by
  rw [save_run]
  cases t.writeFault <;> rfl

end Cache

namespace Cache.Sends

variable {c : Cache} {forms forms' : List QueryForm}

/-! ## §2 Sequences -/

/-- An operation that gives a result at once sends nothing. -/
theorem pure (c : Cache) (a : α) : c.Sends [] (Pure.pure a : ExceptT ε (CacheM Id) α) := by
  intro st
  exact ⟨[], (List.append_nil st.sent).symm, List.Sublist.refl [], fun _ _ _ => rfl⟩

theorem bind {x : ExceptT ε (CacheM Id) α} {k : α → ExceptT ε (CacheM Id) β}
    (hx : c.Sends forms x) (hk : ∀ a, c.Sends forms' (k a)) :
    c.Sends (forms ++ forms') (x >>= k) := by
  intro st
  obtain ⟨new, hsent, hsub, hall⟩ := hx st
  rw [CacheM.run_bind]
  rcases hrun : x.run.run st with ⟨_ | a, st'⟩ <;> rw [hrun] at hsent hall
  · -- Behind an error nothing more is sent.
    exact ⟨new, hsent, hsub.trans (List.sublist_append_left ..), fun _ _ h => by cases h⟩
  · obtain ⟨new', hsent', hsub', hall'⟩ := hk a st'
    refine ⟨new ++ new', ?_, ?_, fun hoff b hb => ?_⟩
    · rw [hsent', hsent, List.append_assoc]
    · rw [List.map_append]
      exact hsub.append hsub'
    · rw [List.map_append, hall hoff a rfl, hall' hoff b hb]

theorem map {x : ExceptT ε (CacheM Id) α} (hx : c.Sends forms x) (f : α → β) :
    c.Sends forms (do return f (← x)) := by
  rw [← List.append_nil forms]
  exact hx.bind fun a => .pure c (f a)

/-- Another wording of the errors makes no difference. -/
theorem adapt {x : ExceptT ε (CacheM Id) α} (hx : c.Sends forms x) (f : ε → ε') :
    c.Sends forms (ExceptT.adapt f x) := by
  intro st
  obtain ⟨new, hsent, hsub, hall⟩ := hx st
  have hrun : (ExceptT.adapt f x).run.run st =
      ((x.run.run st).1.mapError f, (x.run.run st).2) := rfl
  rw [hrun]
  refine ⟨new, hsent, hsub, fun hoff a ha => ?_⟩
  rcases hresult : (x.run.run st).1 with e | b
  · rw [hresult] at ha
    cases ha
  · exact hall hoff b hresult

/-! ## §3 Queries -/

/-- What is looked up first sends nothing, and a cache that is not used finds nothing. -/
theorem lookup {t : Moment} {f : Fetch} {k : Option QueryResult → ExceptT ε (CacheM Id) β}
    (hk : ∀ found, (c.enabled = false → found = none) → c.Sends forms (k found)) :
    c.Sends forms (modifyGet (c.start t f).run >>= k) := by
  intro st
  have hnone (hoff : c.enabled = false) : ((c.start t f).run st).1 = none := by
    simp [start_run, hoff]
  obtain ⟨new, hsent, hsub, hall⟩ := hk _ hnone ((c.start t f).run st).2
  refine ⟨new, ?_, hsub, hall⟩
  rw [← sent_start c t f st]
  exact hsent

/-- A query is sent unless its answer was found. -/
theorem finish (c : Cache) (b : Backend Id) (answered : Moment) (f : Fetch)
    {found : Option QueryResult} (hfound : c.enabled = false → found = none) :
    c.Sends [f.query.form] (c.finish b answered f found) := by
  intro st
  -- An answer can only have been found by a cache that is used.
  cases found with
  | some r =>
    rw [finish_run_some]
    refine ⟨[], by simp, by simp, fun hoff => ?_⟩
    cases hfound hoff
  | none =>
    refine ⟨[f.query], ?_, by simp, by simp⟩
    rw [finish_run_none]
    cases b.answer st.sent f.query with
    | error e => rfl
    | ok r =>
      cases c.enabled with
      | false => rfl
      | true => exact sent_save answered (c.keyFor f) f.ttl r _

theorem query (c : Cache) (b : Backend Id) (timing : Timing Id) (f : Fetch) :
    c.Sends [f.query.form] (c.query b timing f) := by
  rw [query_eq]
  exact lookup fun _ hfound => finish c b timing.answered f hfound

/-- Two queries that belong together are sent one after the other, whether or not both are looked up
first. -/
theorem queryPair (c : Cache) (b : Backend Id) (timing timing' : Timing Id) (pacing : Pacing)
    (f g : Fetch) :
    c.Sends [f.query.form, g.query.form] (c.queryPair b timing timing' pacing f g) := by
  cases pacing with
  | inTurn =>
    exact (query c b timing f).bind fun r => (query c b timing' g).map fun r' => (r, r')
  | together =>
    rw [queryPair_together]
    refine lookup fun found hfound => lookup fun found' hfound' => ?_
    exact (finish c b timing.answered f hfound).bind fun r =>
      (finish c b timing'.answered g hfound').map fun r' => (r, r')

end Cache.Sends

end SnapshotAnalytics

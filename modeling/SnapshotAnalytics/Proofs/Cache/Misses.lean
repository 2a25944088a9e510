import SnapshotAnalytics.Proofs.Cache.Transparency

/-!
# Missing answers

A query whose answer is not stored is answered by the backend, and nothing is asked of how answers are
read from their texts. What one query stores does not concern a query under another key, so two
queries with different keys can both miss.
-/

namespace SnapshotAnalytics

/-- Nothing that can be read is stored under a key. -/
def CacheState.Lacks (key : String) (s : CacheState) : Prop :=
  ∀ e ∈ s.store.entries, e.1 = key → QueryResult.decode? e.2.value = none

namespace Cache

variable {answer : Query → Except QueryError QueryResult} {b : Backend Id} {c : Cache} {t : Moment}
  {f g : Fetch} {s : CacheState} {key : String}

/-! ## §1 Halves of a query -/

theorem start_of_lacks (hs : s.Lacks (c.keyFor f)) : ((c.start t f).run s).1 = none := by
  cases hstart : ((c.start t f).run s).1 with
  | none => rfl
  | some r =>
    obtain ⟨stored, hmem, hdecode⟩ := mem_of_start hstart
    rw [hs _ hmem rfl] at hdecode
    cases hdecode

theorem lacks_start (hs : s.Lacks key) : (((c.start t f).run s).2).Lacks key :=
  fun e he => hs e (mem_of_mem_start he)

/-- What a query stores is stored under its own key. -/
theorem lacks_finish (hs : s.Lacks key) (hkey : key ≠ c.keyFor f) :
    (((c.finish b t f none).run.run s).2).Lacks key := by
  rw [finish_run_none]
  cases b.answer s.sent f.query with
  | error _ => exact hs
  | ok r =>
    cases c.enabled with
    | false => exact hs
    | true =>
      intro e he hekey
      rcases mem_of_mem_save he with ⟨hsaved, _⟩ | hold
      · exact absurd (hekey.symm.trans hsaved) hkey
      · exact hs e hold hekey

/-! ## §2 Pairs -/

/-- Two queries that belong together and miss are sent, in either pacing. -/
theorem queryPair_of_lacks (hb : b.Answers answer) (hf : s.Lacks (c.keyFor f))
    (hg : s.Lacks (c.keyFor g)) (hkeys : c.keyFor f ≠ c.keyFor g) (timing timing' : Timing Id)
    (pacing : Pacing) :
    ((c.queryPair b timing timing' pacing f g).run.run s).1 = do
      let r ← c.outcome answer timing.answered f none
      return (r, ← c.outcome answer timing'.answered g none) := by
  have hfound : ((c.start timing.asked f).run s).1 = none := start_of_lacks hf
  have hs₁ : (((c.start timing.asked f).run s).2).Lacks (c.keyFor g) := lacks_start hg
  -- The first query leaves the second one missing; what the second leaves is of no concern.
  cases pacing with
  | inTurn =>
    have hs₂ : ((c.query b timing f).run.run s).2.Lacks (c.keyFor g) := by
      rw [query_run, hfound]
      exact lacks_finish hs₁ hkeys.symm
    refine (pair_run (R := fun _ => True) ⟨?_, trivial⟩ ⟨?_, trivial⟩).1
    · rw [query_run, hfound]
      exact finish_none hb
    · rw [query_run, start_of_lacks hs₂]
      exact finish_none hb
  | together =>
    have hfound' : ((c.start timing'.asked g).run ((c.start timing.asked f).run s).2).1 = none :=
      start_of_lacks hs₁
    rw [queryPair_run_together, hfound, hfound']
    exact (pair_run (R := fun _ => True) ⟨finish_none hb, trivial⟩ ⟨finish_none hb, trivial⟩).1

end Cache

end SnapshotAnalytics

import SnapshotAnalytics.Proofs.Cache.Agreement
import SnapshotAnalytics.Proofs.Cache.Misses
import SnapshotAnalytics.Proofs.Cache.Sent
import SnapshotAnalytics.Proofs.Query.RoundTrip

/-!
# Repeated queries

A query that has been answered leaves its answer behind, and as long as nothing expires that answer is
found whenever the query is repeated: nothing is sent, and nothing but a hit is noted. The time from
`first` to `last` is one in which nothing expires. What is known in it is never lost, so what was learned
first is found at any later point, whatever else was asked in between.

Two queries that belong together can have the same key. When both are looked up before either is sent,
both can miss, and the answer to the second takes the place of the answer to the first; that is what
repeating both then finds twice.
-/

namespace SnapshotAnalytics

/-! ## §1 What is known -/

/-- A result that can be read back from its text. -/
structure QueryResult.Storable (r : QueryResult) : Prop where
  cells : ∀ row ∈ r.rows, ∀ cell ∈ row, cell.IsCell
  rowCount : r.rowCount < UInt64.size
  elapsedMs : r.elapsedMs < UInt64.size

/-- A backend whose answers can be stored. They may be different whenever it is asked. -/
def Backend.Storable (b : Backend Id) : Prop :=
  ∀ sent q r, b.answer sent q = .ok r → r.Storable

/-- A moment from `first` to `last` at which the store can be read. -/
structure Moment.Reads (first last : Nat) (t : Moment) : Prop where
  begins : first ≤ t.now
  ends : t.now ≤ last
  readable : t.readFault = none

/-- A moment up to `last` at which a write neither fails nor crashes, and what is written outlives
`last`. -/
structure Moment.Writes (last ttl : Nat) (t : Moment) : Prop where
  ends : t.now ≤ last
  outlives : last < t.now + ttl
  fits : t.fits ttl = true
  writable : t.writeFault = none

namespace CacheState

/-- Nothing that is live at `first` expires up to `last`. -/
structure Steady (first last : Nat) (s : CacheState) : Prop where
  ascending : Keyed.Ascending s.store.entries
  lasting : ∀ e ∈ s.store.entries, Store.isLive first e.2 = true → Store.isLive last e.2 = true

/-- What is known in one state is known in another. -/
def Extends (last : Nat) (s s' : CacheState) : Prop :=
  ∀ key r, s.known last key = some r → s'.known last key = some r

/-- What is known is not lost, and what was sent remains so. -/
structure Learns (first last : Nat) (s s' : CacheState) : Prop where
  steady : s'.Steady first last
  keeps : s.Extends last s'
  sent : s.sent <+: s'.sent

/-- So many answers were found and nothing else happened: nothing was sent, missed or stored, and the
store shows what it showed. -/
structure Hits (last n : Nat) (s s' : CacheState) : Prop where
  sent : s'.sent = s.sent
  counters : s'.counters = { s.counters with hits := s.counters.hits + n }
  entries : ∀ e ∈ s'.store.entries, e ∈ s.store.entries
  store : s'.store.AgreeOn (fun _ => true) last s.store

variable {first last now horizon ttl n n' : Nat} {key : String} {s s' s'' : CacheState}
  {r : QueryResult}

theorem Extends.refl (last : Nat) (s : CacheState) : s.Extends last s :=
  fun _ _ h => h

theorem Extends.trans (h : s.Extends last s') (h' : s'.Extends last s'') : s.Extends last s'' :=
  fun key r hr => h' key r (h key r hr)

theorem Extends.of_eq (h : ∀ k, s'.known last k = s.known last k) : s.Extends last s' := by
  intro k r hr
  rw [h, hr]

theorem Steady.initial (first last : Nat) : CacheState.initial.Steady first last :=
  ⟨.nil, nofun⟩

/-- An entry is live throughout or not at all. -/
theorem Steady.isLive_eq (hs : s.Steady first last) (hbegins : first ≤ now) (hends : now ≤ last)
    {e : String × Stored String} (he : e ∈ s.store.entries) :
    Store.isLive now e.2 = Store.isLive last e.2 := by
  rw [Bool.eq_iff_iff]
  constructor
  · intro hnow
    exact hs.lasting e he (Store.isLive_of_le hbegins hnow)
  · exact Store.isLive_of_le hends

theorem Steady.known_eq (hs : s.Steady first last) (hbegins : first ≤ now) (hends : now ≤ last)
    (key : String) : s.known now key = s.known last key := by
  unfold known Store.shown
  cases hfind : Keyed.find? key s.store.entries with
  | none => rfl
  | some v =>
    simp only [Option.filter_some, hs.isLive_eq hbegins hends (Keyed.mem_of_find? hfind)]

theorem Steady.keys_eq (hs : s.Steady first last) (hbegins : first ≤ now) (hends : now ≤ last) :
    s.store.keys now = s.store.keys last := by
  have hlive : s.store.live now = s.store.live last :=
    List.filter_congr fun e he => hs.isLive_eq hbegins hends he
  rw [Store.keys, Store.keys, hlive]

theorem Steady.get (hs : s.Steady first last) (hends : now ≤ last)
    (hstore : s'.store = (s.store.get now key).2) :
    s'.Steady first last ∧ ∀ k, s'.known last k = s.known last k := by
  refine ⟨⟨?_, ?_⟩, ?_⟩
  · rw [hstore]
    exact Store.ascending_get hs.ascending
  · rw [hstore]
    exact fun e he => hs.lasting e (Store.mem_of_mem_get he)
  · intro k
    rw [known, known, hstore, Store.shown_get hs.ascending hends]

/-- What is stored is known from then on, and all else is as before. -/
theorem Steady.set (hs : s.Steady first last) (hends : now ≤ last) (houtlives : last < now + ttl)
    (hfits : Store.fits horizon now ttl = true) (hr : r.Storable)
    (hstore : s'.store = s.store.set horizon now key r.encode ttl) :
    s'.Steady first last ∧ ∀ k, s'.known last k = if k = key then some r else s.known last k := by
  refine ⟨⟨?_, ?_⟩, ?_⟩
  · rw [hstore]
    exact Store.ascending_set hs.ascending
  · intro e he hlive
    rw [hstore] at he
    rcases Store.mem_of_mem_set he with rfl | hold
    · exact decide_eq_true houtlives
    · exact hs.lasting e hold hlive
  · intro k
    rw [known, hstore, Store.shown_set hs.ascending hends, if_pos houtlives]
    by_cases hkey : k = key
    · rw [if_pos ⟨hfits, hkey⟩, if_pos hkey]
      exact QueryResult.decode?_encode hr.cells hr.rowCount hr.elapsedMs
    · rw [if_neg fun h => hkey h.2, if_neg hkey]
      rfl

theorem Learns.refl (hs : s.Steady first last) : s.Learns first last s :=
  ⟨hs, .refl last s, List.prefix_rfl⟩

theorem Learns.trans (h : s.Learns first last s') (h' : s'.Learns first last s'') :
    s.Learns first last s'' :=
  ⟨h'.steady, h.keeps.trans h'.keeps, h.sent.trans h'.sent⟩

theorem Hits.refl (last : Nat) (hs : Keyed.Ascending s.store.entries) : s.Hits last 0 s :=
  ⟨rfl, rfl, fun _ he => he, .refl hs⟩

theorem Hits.trans (h : s.Hits last n s') (h' : s'.Hits last n' s'') : s.Hits last (n + n') s'' := by
  refine ⟨h'.sent.trans h.sent, ?_, fun e he => h.entries e (h'.entries e he), ?_⟩
  · rw [h'.counters, h.counters, Nat.add_assoc]
  · refine ⟨h'.store.ascending, h.store.ascending', fun later hlater key hkey => ?_⟩
    rw [h'.store.shown later hlater key hkey, h.store.shown later hlater key hkey]

theorem Hits.steady (h : s.Hits last n s') (hs : s.Steady first last) : s'.Steady first last :=
  ⟨h.store.ascending, fun e he => hs.lasting e (h.entries e he)⟩

theorem Hits.extends (h : s.Hits last n s') : s.Extends last s' := by
  refine .of_eq fun k => ?_
  rw [known, known, h.store.shown last le_rfl k rfl]

/-- The live keys are the same as before, at any time. -/
theorem Hits.keys_eq (h : s.Hits last n s') (hs : s.Steady first last) (hbegins : first ≤ now)
    (hends : now ≤ last) : s'.store.keys now = s.store.keys now := by
  rw [(h.steady hs).keys_eq hbegins hends, hs.keys_eq hbegins hends]
  have hkeys := h.store.keys_eq (le_refl last)
  rwa [List.filter_eq_self.mpr fun _ _ => rfl, List.filter_eq_self.mpr fun _ _ => rfl] at hkeys

end CacheState

namespace Cache

variable {first last : Nat} {c : Cache} {b : Backend Id} {t : Moment} {timing timing' : Timing Id}
  {f g : Fetch} {s : CacheState} {r r' : QueryResult}

/-! ## §2 The first time -/

/-- What is found is what is known, and looking it up changes nothing that is known. -/
theorem start_learns (hused : c.enabled = true) (ht : t.Reads first last) (hs : s.Steady first last)
    (f : Fetch) :
    ((c.start t f).run s).1 = s.known last (c.keyFor f) ∧
      (((c.start t f).run s).2.Steady first last ∧
        ∀ k, ((c.start t f).run s).2.known last k = s.known last k) ∧
      ((c.start t f).run s).2.sent = s.sent := by
  rw [start_run_readable hused ht.readable, hs.known_eq ht.begins ht.ends]
  exact ⟨rfl, hs.get ht.ends rfl, rfl⟩

/-- The second half of a query, with what is known before and after it: what was received or found is
known under the key of the query, and nothing else has changed. -/
structure Finishes (first last : Nat) (key : String) (s : CacheState)
    (x : Except (Halt QueryError) QueryResult × CacheState) : Prop where
  steady : x.2.Steady first last
  others : ∀ k ≠ key, x.2.known last k = s.known last k
  answered : ∀ r, x.1 = .ok r → x.2.known last key = some r
  sent : s.sent <+: x.2.sent

theorem finishes_some (hs : s.Steady first last) (hr : s.known last (c.keyFor f) = some r) :
    Finishes first last (c.keyFor f) s ((c.finish b t f (some r)).run.run s) := by
  rw [finish_run_some]
  refine ⟨hs, fun _ _ => rfl, fun r' hr' => ?_, List.prefix_rfl⟩
  cases hr'
  exact hr

/-- A query whose answer was not found has the answer of the backend, if that can be stored. -/
theorem finish_run_none_of_writes (hused : c.enabled = true) (ht : t.Writes last f.ttl) :
    (c.finish b t f none).run.run s =
      match b.answer s.sent f.query with
      | .error e => (.error (.error e), { s with sent := s.sent ++ [f.query] })
      | .ok r =>
        (.ok r, ⟨s.store.set t.horizon t.now (c.keyFor f) r.encode f.ttl, s.counters,
          s.sent ++ [f.query]⟩) := by
  rw [finish_run_none]
  cases b.answer s.sent f.query with
  | error e => rfl
  | ok r =>
    have hcrashes : t.crashes f.ttl = false := by
      rw [Moment.crashes, ht.fits, Bool.not_true, Bool.and_false]
    simp only [hused, if_true, hcrashes, Bool.false_eq_true, if_false, save_run, ht.writable]

theorem finishes_none (hused : c.enabled = true) (hb : b.Storable) (ht : t.Writes last f.ttl)
    (hs : s.Steady first last) :
    Finishes first last (c.keyFor f) s ((c.finish b t f none).run.run s) := by
  rw [finish_run_none_of_writes hused ht]
  -- A refusal stores nothing. An answer is stored under its key and changes no other.
  cases hr : b.answer s.sent f.query with
  | error e =>
    exact ⟨⟨hs.ascending, hs.lasting⟩, fun _ _ => rfl, nofun, List.prefix_append _ _⟩
  | ok r =>
    obtain ⟨hsteady, hknown⟩ : CacheState.Steady first last
        ⟨s.store.set t.horizon t.now (c.keyFor f) r.encode f.ttl, s.counters,
          s.sent ++ [f.query]⟩ ∧ _ :=
      hs.set ht.ends ht.outlives ht.fits (hb _ _ _ hr) rfl
    refine ⟨hsteady, fun k hk => (hknown k).trans (if_neg hk), fun r' hr' => ?_,
      List.prefix_append _ _⟩
    cases hr'
    exact (hknown _).trans (if_pos rfl)

theorem finish_none_asks (hused : c.enabled = true) (ht : t.Writes last f.ttl)
    (hr : ((c.finish b t f none).run.run s).1 = .ok r) :
    b.answer s.sent f.query = .ok r ∧
      ((c.finish b t f none).run.run s).2.sent = s.sent ++ [f.query] := by
  rw [finish_run_none_of_writes hused ht] at hr ⊢
  cases hanswer : b.answer s.sent f.query with
  | error e =>
    rw [hanswer] at hr
    cases hr
  | ok r₀ =>
    rw [hanswer] at hr
    cases hr
    exact ⟨rfl, rfl⟩

/-- A query whose answer was looked up, at a state in which the same is known. -/
theorem finishes (hused : c.enabled = true) (hb : b.Storable) (ht : t.Writes last f.ttl)
    (hs : s.Steady first last) {found : Option QueryResult}
    (hfound : ∀ r, found = some r → s.known last (c.keyFor f) = some r) :
    Finishes first last (c.keyFor f) s ((c.finish b t f found).run.run s) := by
  cases found with
  | none => exact finishes_none hused hb ht hs
  | some r => exact finishes_some hs (hfound r rfl)

/-- What was known when a query was looked up is not lost when it is finished. -/
theorem finish_extends {s₀ : CacheState} {found : Option QueryResult}
    (hfinishes : Finishes first last (c.keyFor f) s ((c.finish b t f found).run.run s))
    (hfound : ∀ r, s₀.known last (c.keyFor f) = some r → found = some r)
    (hextends : s₀.Extends last s) : s₀.Extends last ((c.finish b t f found).run.run s).2 := by
  intro k r hr
  by_cases hk : k = c.keyFor f
  · subst hk
    rw [hfound r hr, finish_run_some]
    exact hextends _ r hr
  · rw [hfinishes.others k hk]
    exact hextends k r hr

/-- A query that is answered is known from then on, and nothing that was known is lost. -/
theorem query_learns (hused : c.enabled = true) (hb : b.Storable)
    (ht : Moment.Reads first last timing.asked) (ht' : Moment.Writes last f.ttl timing.answered)
    (hs : s.Steady first last) :
    s.Learns first last ((c.query b timing f).run.run s).2 ∧
      ∀ r, ((c.query b timing f).run.run s).1 = .ok r →
        ((c.query b timing f).run.run s).2.known last (c.keyFor f) = some r := by
  obtain ⟨hfound, ⟨hs₁, hknown₁⟩, hsent₁⟩ := start_learns hused ht hs f
  rw [query_run, hfound]
  have hfinishes : Finishes first last (c.keyFor f) ((c.start timing.asked f).run s).2 _ :=
    finishes hused hb ht' hs₁ fun r hr => (hknown₁ _).trans hr
  exact ⟨⟨hfinishes.steady, finish_extends hfinishes (fun _ hr => hr) (.of_eq hknown₁),
    hsent₁ ▸ hfinishes.sent⟩, hfinishes.answered⟩

/-- Between two points of a log of sent queries, no query was sent twice in a row and answered in two
ways. This is asked only where queries are looked up together: one after the other, the second finds
the answer to the first. -/
def AnsweredAlike (b : Backend Id) (pacing : Pacing) (begun log : List Query) : Prop :=
  pacing = .together → ∀ sent q r r', begun <+: sent → sent ++ [q, q] <+: log →
    b.answer sent q = .ok r → b.answer (sent ++ [q]) q = .ok r' → r = r'

theorem AnsweredAlike.mono {pacing : Pacing} {begun begun' log log' : List Query}
    (h : AnsweredAlike b pacing begun log) (hbegun : begun <+: begun') (hlog : log' <+: log) :
    AnsweredAlike b pacing begun' log' :=
  fun htogether sent q r r' hsent hlast =>
    h htogether sent q r r' (hbegun.trans hsent) (hlast.trans hlog)

/-- What is known of two queries that belong together when both have been answered: the answer to the
second, and one to the first, which is its own unless both have the same key. -/
structure PairKnown (b : Backend Id) (pacing : Pacing) (last : Nat) (key key' : String)
    (answers : QueryResult × QueryResult) (s s' : CacheState) (r : QueryResult) : Prop where
  first : s'.known last key = some r
  second : s'.known last key' = some answers.2
  own : key ≠ key' → r = answers.1
  alike : AnsweredAlike b pacing s.sent s'.sent → r = answers.1

/-- Two queries one after the other: the second may find what the first received. -/
theorem inTurn_learns (hused : c.enabled = true) (hb : b.Storable)
    (ht : Moment.Reads first last timing.asked) (ht' : Moment.Reads first last timing'.asked)
    (hf : Moment.Writes last f.ttl timing.answered) (hg : Moment.Writes last g.ttl timing'.answered)
    (hs : s.Steady first last) :
    s.Learns first last ((c.queryPair b timing timing' .inTurn f g).run.run s).2 ∧
      ∀ answers, ((c.queryPair b timing timing' .inTurn f g).run.run s).1 = .ok answers →
        ∃ r, PairKnown b .inTurn last (c.keyFor f) (c.keyFor g) answers s
          ((c.queryPair b timing timing' .inTurn f g).run.run s).2 r := by
  rw [queryPair_inTurn, CacheM.run_bind]
  obtain ⟨hlearns₁, hknown₁⟩ := query_learns hused hb ht hf hs
  rcases hrun : (c.query b timing f).run.run s with ⟨halt | r, s₁⟩ <;> rw [hrun] at hlearns₁ hknown₁
  · exact ⟨hlearns₁, nofun⟩
  · -- What was learnt of the first query stays known, so the second query cannot hide it.
    obtain ⟨hlearns₂, hknown₂⟩ := query_learns hused hb ht' hg hlearns₁.steady
    dsimp only
    rw [CacheM.run_bind]
    rcases hrun' : (c.query b timing' g).run.run s₁ with ⟨halt | r', s₂⟩ <;>
      rw [hrun'] at hlearns₂ hknown₂
    · exact ⟨hlearns₁.trans hlearns₂, nofun⟩
    · refine ⟨hlearns₁.trans hlearns₂, fun answers hanswers => ⟨r, ?_⟩⟩
      cases hanswers
      exact ⟨hlearns₂.keeps _ _ (hknown₁ r rfl), hknown₂ r' rfl, fun _ => rfl, fun _ => rfl⟩

/-- Two queries whose answers were looked up together, under one key, have one answer if the backend
answers alike. -/
theorem finish_alike {t t' : Moment} {found : Option QueryResult} {s₁ s₂ : CacheState}
    {r' : QueryResult} (hused : c.enabled = true) (hf : t.Writes last f.ttl)
    (hg : t'.Writes last g.ttl) (hquery : f.query = g.query)
    (hrun : (c.finish b t f found).run.run s = (.ok r, s₁))
    (hrun' : (c.finish b t' g found).run.run s₁ = (.ok r', s₂))
    (halike : AnsweredAlike b .together s.sent s₂.sent) : r' = r := by
  cases found with
  | some r₀ =>
    -- Both were found, and so they are the same.
    rw [finish_run_some] at hrun hrun'
    cases hrun
    cases hrun'
    rfl
  | none =>
    -- Both were sent, one right behind the other.
    obtain ⟨hasks, hsent⟩ :=
      finish_none_asks hused hf (congrArg (fun x => x.1) hrun : _ = Except.ok r)
    obtain ⟨hasks', hsent'⟩ :=
      finish_none_asks hused hg (congrArg (fun x => x.1) hrun' : _ = Except.ok r')
    rw [hrun] at hsent
    rw [hrun'] at hsent'
    rw [hsent, ← hquery] at hasks' hsent'
    have hlog : s.sent ++ [f.query, f.query] <+: s₂.sent := by
      rw [hsent', List.append_assoc]
      exact List.prefix_rfl
    exact (halike rfl _ _ _ _ List.prefix_rfl hlog hasks hasks').symm

/-- The second halves of two queries that were looked up at the same state. -/
theorem finishPair_learns (hused : c.enabled = true) (hb : b.Storable) {t t' : Moment}
    (hf : t.Writes last f.ttl) (hg : t'.Writes last g.ttl)
    (hsame : c.keyFor f = c.keyFor g → f.query = g.query) (hs : s.Steady first last) :
    let pair : ExceptT (Halt QueryError) (CacheM Id) (QueryResult × QueryResult) := do
      let r ← c.finish b t f (s.known last (c.keyFor f))
      return (r, ← c.finish b t' g (s.known last (c.keyFor g)))
    s.Learns first last (pair.run.run s).2 ∧
      ∀ answers, (pair.run.run s).1 = .ok answers →
        ∃ r, PairKnown b .together last (c.keyFor f) (c.keyFor g) answers s (pair.run.run s).2 r := by
  intro pair
  have hpair : pair.run.run s = (c.finish b t f (s.known last (c.keyFor f)) >>= fun r =>
    c.finish b t' g (s.known last (c.keyFor g)) >>= fun r' => pure (r, r')).run.run s := rfl
  have hfirst : Finishes first last (c.keyFor f) s
      ((c.finish b t f (s.known last (c.keyFor f))).run.run s) :=
    finishes hused hb hf hs fun _ hr => hr
  have hextends₁ := finish_extends hfirst (fun _ hr => hr) (.refl last s)
  rw [hpair, CacheM.run_bind]
  rcases hrun : (c.finish b t f (s.known last (c.keyFor f))).run.run s with ⟨halt | r, s₁⟩ <;>
    rw [hrun] at hfirst hextends₁
  · exact ⟨⟨hfirst.steady, hextends₁, hfirst.sent⟩, nofun⟩
  have hsecond : Finishes first last (c.keyFor g) s₁
      ((c.finish b t' g (s.known last (c.keyFor g))).run.run s₁) :=
    finishes hused hb hg hfirst.steady (hextends₁ _)
  have hextends₂ := finish_extends hsecond (fun _ hr => hr) hextends₁
  dsimp only
  rw [CacheM.run_bind]
  rcases hrun' : (c.finish b t' g (s.known last (c.keyFor g))).run.run s₁ with ⟨halt | r', s₂⟩ <;>
    rw [hrun'] at hsecond hextends₂
  · exact ⟨⟨hsecond.steady, hextends₂, hfirst.sent.trans hsecond.sent⟩, nofun⟩
  refine ⟨⟨hsecond.steady, hextends₂, hfirst.sent.trans hsecond.sent⟩, fun answers hanswers => ?_⟩
  cases hanswers
  by_cases hkeys : c.keyFor f = c.keyFor g
  · -- One key for both: the answer to the second query is what is known of the first.
    refine ⟨r', hkeys ▸ hsecond.answered r' rfl, hsecond.answered r' rfl, absurd hkeys,
      fun halike => ?_⟩
    rw [← hkeys] at hrun'
    exact finish_alike hused hf hg (hsame hkeys) hrun hrun' halike
  · exact ⟨r, (hsecond.others _ hkeys).trans (hfirst.answered r rfl), hsecond.answered r' rfl,
      fun _ => rfl, fun _ => rfl⟩

/-- Two queries that belong together and are answered are known from then on, and nothing that was
known is lost. -/
theorem queryPair_learns (hused : c.enabled = true) (hb : b.Storable)
    (ht : Moment.Reads first last timing.asked) (ht' : Moment.Reads first last timing'.asked)
    (hf : Moment.Writes last f.ttl timing.answered) (hg : Moment.Writes last g.ttl timing'.answered)
    (pacing : Pacing) (hsame : c.keyFor f = c.keyFor g → f.query = g.query)
    (hs : s.Steady first last) :
    s.Learns first last ((c.queryPair b timing timing' pacing f g).run.run s).2 ∧
      ∀ answers, ((c.queryPair b timing timing' pacing f g).run.run s).1 = .ok answers →
        ∃ r, PairKnown b pacing last (c.keyFor f) (c.keyFor g) answers s
          ((c.queryPair b timing timing' pacing f g).run.run s).2 r := by
  cases pacing with
  | inTurn => exact inTurn_learns hused hb ht ht' hf hg hs
  | together =>
    obtain ⟨hfound, ⟨hs₁, hknown₁⟩, hsent₁⟩ := start_learns hused ht hs f
    obtain ⟨hfound', ⟨hs₂, hknown₂⟩, hsent₂⟩ := start_learns hused ht' hs₁ g
    -- Looking both up changes nothing that is known, and sends nothing.
    have hknown (k : String) := (hknown₂ k).trans (hknown₁ k)
    have hsent := hsent₂.trans hsent₁
    rw [queryPair_run_together, hfound, hfound', ← hknown, ← hknown₂]
    obtain ⟨hlearns, hanswers⟩ := finishPair_learns hused hb hf hg hsame hs₂
    refine ⟨⟨hlearns.steady, (CacheState.Extends.of_eq hknown).trans hlearns.keeps,
      hsent ▸ hlearns.sent⟩, fun answers h => ?_⟩
    obtain ⟨r, hr⟩ := hanswers answers h
    exact ⟨r, hr.first, hr.second, hr.own, fun halike => hr.alike (hsent ▸ halike)⟩

/-- What is not found is sent, and nothing but its answer is stored. -/
theorem finish_of_lacks (hused : c.enabled = true) (ht : t.Writes last f.ttl)
    (hr : b.answer s.sent f.query = .ok r) :
    ∃ s', (c.finish b t f none).run.run s = (.ok r, s') ∧ s'.sent = s.sent ++ [f.query] ∧
      ∀ key, s.Lacks key → key ≠ c.keyFor f → s'.Lacks key := by
  have hrun : (c.finish b t f none).run.run s = (.ok r,
      ⟨s.store.set t.horizon t.now (c.keyFor f) r.encode f.ttl, s.counters, s.sent ++ [f.query]⟩) := by
    rw [finish_run_none_of_writes hused ht, hr]
  refine ⟨_, hrun, rfl, fun key hkey hother => ?_⟩
  have hlacks := lacks_finish (b := b) (t := t) hkey hother
  rwa [hrun] at hlacks

theorem query_of_lacks (timing : Timing Id) (hused : c.enabled = true)
    (hf : Moment.Writes last f.ttl timing.answered) (hlacks : s.Lacks (c.keyFor f))
    (hr : b.answer s.sent f.query = .ok r) :
    ∃ s', (c.query b timing f).run.run s = (.ok r, s') ∧ s'.sent = s.sent ++ [f.query] ∧
      ∀ key, s.Lacks key → key ≠ c.keyFor f → s'.Lacks key := by
  have hsent : ((c.start timing.asked f).run s).2.sent = s.sent := sent_start c _ f s
  obtain ⟨s', hrun, hsent', hlacks'⟩ := finish_of_lacks hused hf (hsent.symm ▸ hr)
  refine ⟨s', ?_, hsent ▸ hsent', fun key hkey => hlacks' key (lacks_start hkey)⟩
  rw [query_run, start_of_lacks hlacks]
  exact hrun

/-- Two queries that are looked up together and are not found are both sent, also when they are the
same query. -/
theorem queryPair_together_of_lacks (timing timing' : Timing Id) (hused : c.enabled = true)
    (hf : Moment.Writes last f.ttl timing.answered) (hg : Moment.Writes last g.ttl timing'.answered)
    (hlacks : s.Lacks (c.keyFor f)) (hlacks' : s.Lacks (c.keyFor g))
    (hr : b.answer s.sent f.query = .ok r) (hr' : b.answer (s.sent ++ [f.query]) g.query = .ok r') :
    ∃ s', (c.queryPair b timing timing' .together f g).run.run s = (.ok (r, r'), s') ∧
      s'.sent = s.sent ++ [f.query, g.query] ∧
      ∀ key, s.Lacks key → key ≠ c.keyFor f → key ≠ c.keyFor g → s'.Lacks key := by
  have hsent : (((c.start timing'.asked g).run ((c.start timing.asked f).run s).2).2).sent = s.sent := by
    rw [sent_start, sent_start]
  rw [queryPair_run_together, start_of_lacks hlacks, start_of_lacks (lacks_start hlacks'),
    CacheM.run_bind]
  -- The state behind both look-ups lacks what `s` lacks.
  have hlost (key : String) (h : s.Lacks key) :
      (((c.start timing'.asked g).run ((c.start timing.asked f).run s).2).2).Lacks key :=
    lacks_start (lacks_start h)
  generalize ((c.start timing'.asked g).run ((c.start timing.asked f).run s).2).2 = s₀ at hsent hlost ⊢
  rw [← hsent] at hr hr' ⊢
  obtain ⟨s₁, hrun, hsent₁, hlacks₁⟩ := finish_of_lacks hused hf hr
  obtain ⟨s₂, hrun', hsent₂, hlacks₂⟩ := finish_of_lacks hused hg (hsent₁.symm ▸ hr')
  refine ⟨s₂, ?_, ?_, fun key hkey hkeyf hkeyg => ?_⟩
  · rw [hrun]
    dsimp only
    rw [CacheM.run_bind, hrun']
    rfl
  · rw [hsent₂, hsent₁, List.append_assoc]
    rfl
  · exact hlacks₂ key (hlacks₁ key (hlost key hkey) hkeyf) hkeyg

/-! ## §3 The second time -/

/-- What is known is found, and only a hit is noted. -/
theorem start_replays (hused : c.enabled = true) (ht : t.Reads first last)
    (hs : s.Steady first last) (hr : s.known last (c.keyFor f) = some r) :
    ∃ s', (c.start t f).run s = (some r, s') ∧ s.Hits last 1 s' := by
  have hknown : s.known t.now (c.keyFor f) = some r := (hs.known_eq ht.begins ht.ends _).trans hr
  rw [start_run_readable hused ht.readable, hknown]
  exact ⟨_, rfl, rfl, rfl, fun e he => Store.mem_of_mem_get he,
    ((Store.AgreeOn.refl hs.ascending).get_left le_rfl).mono ht.ends⟩

/-- A query whose answer is known is answered by it, whatever the backend would answer now. -/
theorem query_replays (hused : c.enabled = true) (b : Backend Id)
    (ht : Moment.Reads first last timing.asked) (hs : s.Steady first last)
    (hr : s.known last (c.keyFor f) = some r) :
    ∃ s', (c.query b timing f).run.run s = (.ok r, s') ∧ s.Hits last 1 s' := by
  obtain ⟨s', hstart, hhits⟩ := start_replays hused ht hs hr
  refine ⟨s', ?_, hhits⟩
  rw [query_run, hstart]
  rfl

theorem queryPair_replays (hused : c.enabled = true) (b : Backend Id)
    (ht : Moment.Reads first last timing.asked) (ht' : Moment.Reads first last timing'.asked)
    (pacing : Pacing) (hs : s.Steady first last) (hr : s.known last (c.keyFor f) = some r)
    (hr' : s.known last (c.keyFor g) = some r') :
    ∃ s', (c.queryPair b timing timing' pacing f g).run.run s = (.ok (r, r'), s') ∧
      s.Hits last 2 s' := by
  obtain ⟨s₁, hstart₁, hhits₁⟩ := start_replays hused ht hs hr
  obtain ⟨s₂, hstart₂, hhits₂⟩ := start_replays hused ht' (hhits₁.steady hs)
    (hhits₁.extends _ _ hr')
  refine ⟨s₂, ?_, hhits₁.trans hhits₂⟩
  -- Both look-ups find their answers, so nothing is sent, whichever comes first.
  cases pacing with
  | inTurn =>
    rw [queryPair_inTurn, CacheM.run_bind, query_run, hstart₁, finish_run_some]
    dsimp only
    rw [CacheM.run_bind, query_run, hstart₂, finish_run_some]
    rfl
  | together =>
    rw [queryPair_run_together, hstart₁, hstart₂]
    rfl

end Cache

end SnapshotAnalytics

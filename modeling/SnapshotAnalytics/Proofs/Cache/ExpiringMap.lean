import Mathlib.Data.List.Dedup
import SnapshotAnalytics.Proofs.Cache.Expiry
import SnapshotAnalytics.Proofs.Data.Sorting

/-!
# The store as an expiring map

What a store answers is determined by the operations on it so far: under a key it holds the value that
was last written there, unless that has expired or a pattern that matches the key was deleted since.
Entries that are not live are cleared away on reads and on some writes, and nothing of it can be seen. A
write that would expire behind the last time that there is crashes and changes nothing that can be seen.
-/

namespace SnapshotAnalytics

/-! ## §1 Operations -/

/-- An operation on a store. -/
inductive StoreOperation (β : Type) where
  | set (key : String) (value : β) (ttl : Nat)
  | get (key : String)
  | deleteMatching (pattern : String)
  | keys
  | size

/-- What an operation gives back. -/
inductive StoreAnswer (β : Type) where
  | done
  | crashed
  | found (value : Option β)
  | deleted (count : Except Text.GlobError Nat)
  | listed (keys : List String)
  | counted (n : Nat)
  deriving DecidableEq

/-- An operation at a time. -/
structure StoreStep (β : Type) where
  now : Nat
  operation : StoreOperation β

variable {β : Type}

/-- Whether a step does not write what would expire behind the horizon. -/
def StoreStep.fits (horizon : Nat) : StoreStep β → Bool
  | ⟨now, .set _ _ ttl⟩ => Store.fits horizon now ttl
  | _ => true

namespace Store

/-- The answer to a step, and the store behind it. -/
def perform (horizon : Nat) : StoreStep β → Store β → StoreAnswer β × Store β
  | ⟨now, .set key value ttl⟩, s =>
    (if fits horizon now ttl then .done else .crashed, s.set horizon now key value ttl)
  | ⟨now, .get key⟩, s => (.found (s.get now key).1, (s.get now key).2)
  | ⟨now, .deleteMatching pattern⟩, s =>
    match s.deleteMatching now pattern with
    | .error e => (.deleted (.error e), s)
    | .ok (count, s') => (.deleted (.ok count), s')
  | ⟨now, .keys⟩, s => (.listed (s.keys now), s)
  | ⟨now, .size⟩, s => (.counted (s.size now), s)

/-- The answers to steps, one after the other. -/
def answers (horizon : Nat) : List (StoreStep β) → Store β → List (StoreAnswer β)
  | [], _ => []
  | step :: steps, s => (s.perform horizon step).1 :: answers horizon steps (s.perform horizon step).2

end Store

/-! ## §2 The expiring map -/

namespace ExpiringMap

/-- The value under a key behind steps, the latest of them first: that of the last write, unless it
has expired or a pattern that matches the key was deleted since. -/
def value? (now : Nat) (key : String) : List (StoreStep β) → Option β
  | [] => none
  | ⟨time, .set written value ttl⟩ :: past =>
    if key = written then (if now < time + ttl then some value else none) else value? now key past
  | ⟨_, .deleteMatching pattern⟩ :: past =>
    if Text.Glob.covers pattern key then none else value? now key past
  | ⟨_, .get _⟩ :: past | ⟨_, .keys⟩ :: past | ⟨_, .size⟩ :: past => value? now key past

/-- The key that a step writes. -/
def written? : StoreStep β → Option String
  | ⟨_, .set key _ _⟩ => some key
  | _ => none

/-- The keys that have a value, in ascending order. -/
def keys (now : Nat) (past : List (StoreStep β)) : List String :=
  ((past.filterMap written?).dedup.filter fun key => (value? now key past).isSome).mergeSort
    fun key key' => (compare key key').isLE

/-- The answer to a step behind others. -/
def answer (past : List (StoreStep β)) : StoreStep β → StoreAnswer β
  | ⟨_, .set _ _ _⟩ => .done
  | ⟨now, .get key⟩ => .found (value? now key past)
  | ⟨now, .deleteMatching pattern⟩ =>
    .deleted ((Text.Glob.read pattern).map fun _ =>
      ((keys now past).filter (Text.Glob.covers pattern)).length)
  | ⟨now, .keys⟩ => .listed (keys now past)
  | ⟨now, .size⟩ => .counted (keys now past).length

/-- The answers to steps behind others. -/
def answers (past : List (StoreStep β)) : List (StoreStep β) → List (StoreAnswer β)
  | [] => []
  | step :: steps => answer past step :: answers (step :: past) steps

/-- The answers to steps behind others when a write that does not fit crashes: it is as if it had not
been there. -/
def answersWithin (horizon : Nat) (past : List (StoreStep β)) :
    List (StoreStep β) → List (StoreAnswer β)
  | [] => []
  | step :: steps =>
    if step.fits horizon then answer past step :: answersWithin horizon (step :: past) steps
    else .crashed :: answersWithin horizon past steps

variable {now horizon : Nat} {key : String} {past : List (StoreStep β)}

/-- What has a value was written. -/
theorem mem_written (h : (value? now key past).isSome = true) : key ∈ past.filterMap written? := by
  induction past with
  | nil => cases h
  | cons step past ih =>
    obtain ⟨time, operation⟩ := step
    -- Only a write can give a key its value; all other steps leave the earlier ones to do so.
    cases operation <;> simp only [value?] at h
    case set written value ttl =>
      split at h
      · rename_i hkey
        rw [hkey]
        exact List.mem_cons_self ..
      · exact List.mem_cons_of_mem _ (ih h)
    case deleteMatching pattern =>
      split at h
      · cases h
      · exact ih h
    case get | keys | size => exact ih h

theorem mem_keys : key ∈ keys now past ↔ (value? now key past).isSome = true := by
  rw [keys, List.mem_mergeSort, List.mem_filter, List.mem_dedup]
  exact ⟨And.right, fun h => ⟨mem_written h, h⟩⟩

/-- The keys are in ascending order, each once. -/
theorem pairwise_keys :
    (keys now past).Pairwise fun key key' => compare key key' = .lt := by
  apply Sorting.pairwise_lt_mergeSort
  exact ((List.nodup_dedup _).filter _).imp fun hne hcmp =>
    hne (Std.LawfulEqOrd.eq_of_compare hcmp)

/-- The map never crashes. -/
theorem answer_ne_crashed (past : List (StoreStep β)) (step : StoreStep β) :
    answer past step ≠ .crashed := by
  obtain ⟨now, operation⟩ := step
  cases operation <;> simp [answer]

/-- Without a crash the answers are those of the map, and with one they are not. -/
theorem answersWithin_eq_answers_iff {steps : List (StoreStep β)} :
    answersWithin horizon past steps = answers past steps ↔
      ∀ step ∈ steps, step.fits horizon = true := by
  induction steps generalizing past with
  | nil => exact iff_of_true rfl (List.forall_mem_nil _)
  | cons step steps ih =>
    rw [answersWithin, answers, List.forall_mem_cons]
    -- A step that does not fit is the first to differ, as the map never answers with a crash.
    cases hfits : step.fits horizon with
    | true => rw [if_pos rfl, List.cons_inj_right, ih, and_iff_right rfl]
    | false =>
      rw [if_neg Bool.false_ne_true]
      exact iff_of_false (fun h => answer_ne_crashed past step (List.cons.inj h).1.symm)
        fun h => Bool.false_ne_true h.1

end ExpiringMap

/-! ## §3 Refinement -/

/-- A store that shows, now and later, what the map holds behind steps. -/
structure Store.Refines (s : Store β) (now : Nat) (past : List (StoreStep β)) : Prop where
  ascending : Keyed.Ascending s.entries
  shown : ∀ later ≥ now, ∀ key, s.shown later key = ExpiringMap.value? later key past

namespace Store

variable {s : Store β} {horizon now : Nat} {past : List (StoreStep β)}

theorem refines_empty : (empty : Store β).Refines 0 [] :=
  ⟨List.Pairwise.nil, fun _ _ _ => rfl⟩

theorem Refines.keys_eq (h : s.Refines now past) {later : Nat} (hle : now ≤ later) :
    s.keys later = ExpiringMap.keys later past := by
  refine Keyed.eq_of_ascending (pairwise_keys h.ascending) ExpiringMap.pairwise_keys fun key => ?_
  rw [mem_keys h.ascending, ExpiringMap.mem_keys, h.shown later hle key]

/-- The answer to a step that does not crash is that of the map. -/
theorem Refines.answer_eq (h : s.Refines now past) {step : StoreStep β} (hle : now ≤ step.now)
    (hfits : step.fits horizon = true) :
    (s.perform horizon step).1 = ExpiringMap.answer past step := by
  obtain ⟨time, operation⟩ := step
  cases operation with
  | set key value ttl => exact if_pos hfits
  | get key => rw [perform, ExpiringMap.answer, get_fst, h.shown time hle]
  | deleteMatching pattern =>
    rw [perform, ExpiringMap.answer, ← h.keys_eq hle]
    -- A malformed pattern is refused, and any other one is read before anything is deleted.
    cases hdelete : s.deleteMatching time pattern with
    | error e =>
      rw [deleteMatching_eq_error.mp hdelete]
      rfl
    | ok deleted =>
      obtain ⟨count, s'⟩ := deleted
      cases hread : Text.Glob.read pattern with
      | error e =>
        rw [deleteMatching_eq_error.mpr hread] at hdelete
        cases hdelete
      | ok tokens =>
        rw [(deleteMatching_eq_ok hdelete).1]
        rfl
  | keys => rw [perform, ExpiringMap.answer, h.keys_eq hle]
  | size => rw [perform, ExpiringMap.answer, size_eq, h.keys_eq hle]

/-- A step that does not crash keeps the store in line with the map. -/
theorem Refines.perform (h : s.Refines now past) {step : StoreStep β} (hle : now ≤ step.now)
    (hfits : step.fits horizon = true) :
    (s.perform horizon step).2.Refines step.now (step :: past) := by
  obtain ⟨time, operation⟩ := step
  have hshown {later : Nat} (hlater : later ≥ time) (key : String) :
      s.shown later key = ExpiringMap.value? later key past :=
    h.shown later (Nat.le_trans hle hlater) key
  -- What a write, a read or a deletion leaves to be shown is what the map says; the other steps
  -- leave the store alone.
  cases operation with
  | set key value ttl =>
    have hwritten : Store.fits horizon time ttl = true := hfits
    refine ⟨ascending_set h.ascending, fun later hlater k => ?_⟩
    rw [Store.perform, shown_set h.ascending hlater, ExpiringMap.value?, hshown hlater]
    simp only [hwritten, true_and]
  | get key =>
    refine ⟨ascending_get h.ascending, fun later hlater k => ?_⟩
    rw [Store.perform, shown_get h.ascending hlater, ExpiringMap.value?, hshown hlater]
  | deleteMatching pattern =>
    rw [Store.perform]
    cases hdelete : s.deleteMatching time pattern with
    | error e =>
      refine ⟨h.ascending, fun later hlater k => ?_⟩
      -- A pattern that is refused covers no key, so the map is left alone too.
      have hcovers : Text.Glob.covers pattern k = false := by
        rw [Text.Glob.covers, deleteMatching_eq_error.mp hdelete]
      rw [hshown hlater, ExpiringMap.value?, hcovers]
      rfl
    | ok deleted =>
      obtain ⟨count, s'⟩ := deleted
      refine ⟨ascending_deleteMatching h.ascending hdelete, fun later hlater k => ?_⟩
      rw [shown_deleteMatching h.ascending hdelete, ExpiringMap.value?, hshown hlater]
  | keys => exact ⟨h.ascending, fun later hlater k => hshown hlater k⟩
  | size => exact ⟨h.ascending, fun later hlater k => hshown hlater k⟩

/-- A step that crashes is a write, and it changes nothing that is shown. -/
theorem Refines.perform_crashed (h : s.Refines now past) {step : StoreStep β} (hle : now ≤ step.now)
    (hfits : step.fits horizon = false) :
    (s.perform horizon step).1 = .crashed ∧ (s.perform horizon step).2.Refines step.now past := by
  obtain ⟨time, operation⟩ := step
  cases operation with
  | set key value ttl =>
    have hunfit : Store.fits horizon time ttl = false := hfits
    rw [Store.perform, hunfit]
    refine ⟨rfl, ascending_set h.ascending, fun later hlater k => ?_⟩
    rw [shown_set h.ascending hlater, hunfit, if_neg fun hand => Bool.false_ne_true hand.1]
    exact h.shown later (Nat.le_trans hle hlater) k
  | get | deleteMatching | keys | size => cases hfits

theorem Refines.answers_eq (h : s.Refines now past) {steps : List (StoreStep β)}
    (hle : ∀ step ∈ steps, now ≤ step.now)
    (hordered : steps.Pairwise fun step next => step.now ≤ next.now) :
    s.answers horizon steps = ExpiringMap.answersWithin horizon past steps := by
  induction steps generalizing s now past with
  | nil => rfl
  | cons step steps ih =>
    obtain ⟨hfirst, _⟩ := List.forall_mem_cons.mp hle
    obtain ⟨hlater, hrest⟩ := List.pairwise_cons.mp hordered
    rw [answers, ExpiringMap.answersWithin]
    -- A crash is answered alike, and what is left in the store is then in line with the map.
    cases hfits : step.fits horizon with
    | true =>
      rw [if_pos rfl, h.answer_eq hfirst hfits, ih (h.perform hfirst hfits) hlater hrest]
    | false =>
      obtain ⟨hcrashed, hrefines⟩ := h.perform_crashed hfirst hfits
      rw [if_neg Bool.false_ne_true, hcrashed, ih hrefines hlater hrest]

/-- **A store is an expiring map**: from the empty store on, at times that do not run backwards, the
answers to operations are those of the map exactly if no write would expire behind the horizon. Such a
write crashes, and all other answers are those of the map without it. So nothing can be seen of expired
entries being cleared away on reads and on every 256th write. -/
theorem answers_eq_expiringMap (horizon : Nat) (steps : List (StoreStep β))
    (hordered : steps.Pairwise fun step next => step.now ≤ next.now) :
    (empty.answers horizon steps = ExpiringMap.answers [] steps ↔
      ∀ step ∈ steps, step.fits horizon = true) ∧
    empty.answers horizon steps = ExpiringMap.answersWithin horizon [] steps := by
  have hwithin : empty.answers horizon steps = ExpiringMap.answersWithin horizon [] steps :=
    refines_empty.answers_eq (fun _ _ => Nat.zero_le _) hordered
  exact ⟨by rw [hwithin, ExpiringMap.answersWithin_eq_answers_iff], hwithin⟩

/-! A key that is written, expires and is written again, one that expires at once, patterns, and a write
that crashes. -/

def rewrittenSteps : List (StoreStep Nat) :=
  [⟨0, .set "h:desk" 1 10⟩, ⟨0, .set "h:book" 2 0⟩, ⟨5, .set "i:desk" 3 100⟩, ⟨9, .get "h:desk"⟩,
    ⟨9, .keys⟩, ⟨10, .get "h:desk"⟩, ⟨10, .size⟩, ⟨12, .set "h:desk" 4 10⟩, ⟨13, .get "h:desk"⟩,
    ⟨14, .deleteMatching "h:["⟩, ⟨14, .deleteMatching "h:*"⟩, ⟨14, .get "h:desk"⟩, ⟨14, .keys⟩]

def crashingSteps : List (StoreStep Nat) :=
  rewrittenSteps ++ [⟨15, .set "i:desk" 5 lastTime⟩, ⟨16, .get "i:desk"⟩]

theorem answers_eq_expiringMap_rewritten :
    ExpiringMap.answers [] rewrittenSteps =
        [.done, .done, .done, .found (some 1), .listed ["h:desk", "i:desk"], .found none,
          .counted 1, .done, .found (some 4), .deleted (.error ⟨2, .invalidRange⟩),
          .deleted (.ok 1), .found none, .listed ["i:desk"]] ∧
      ExpiringMap.answersWithin lastTime [] crashingSteps =
        ExpiringMap.answers [] rewrittenSteps ++ [.crashed, .found (some 3)] := by
  have hrewritten := (answers_eq_expiringMap lastTime rewrittenSteps (by decide)).1.mpr (by decide)
  have hcrashing := (answers_eq_expiringMap lastTime crashingSteps (by decide)).2
  exact ⟨hrewritten.symm.trans (by decide +kernel),
    by rw [← hcrashing, ← hrewritten]; decide +kernel⟩

/-- A value that is to be kept for as long as a lifetime of whole seconds can be is not kept at all: the
map has it a second later, and the write has crashed. -/
theorem write_crashes :
    let steps : List (StoreStep Nat) :=
      [⟨nanoseconds 1, .set "h:desk" 1 (nanoseconds 9223372036854775807)⟩,
        ⟨nanoseconds 2, .get "h:desk"⟩]
    ExpiringMap.answers [] steps = [.done, .found (some 1)] ∧
      empty.answers lastTime steps = [.crashed, .found none] := by
  decide +kernel

end Store

end SnapshotAnalytics

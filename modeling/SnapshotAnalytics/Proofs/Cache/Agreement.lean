import SnapshotAnalytics.Proofs.Cache.Expiry

/-!
# Stores that agree on some keys

Two stores agree on some keys from a time on when they show the same under these keys, then and ever
after. They still agree after the same operation on both that concerns these keys only, and after any
operation on one of them that concerns none of these keys.
-/

namespace SnapshotAnalytics.Store

variable {β : Type}

/-- Two stores that show the same under some keys from a time on. -/
structure AgreeOn (p : String → Bool) (now : Nat) (s s' : Store β) : Prop where
  ascending : Keyed.Ascending s.entries
  ascending' : Keyed.Ascending s'.entries
  shown : ∀ later ≥ now, ∀ key, p key = true → s.shown later key = s'.shown later key

namespace AgreeOn

variable {p : String → Bool} {now later horizon n ttl : Nat} {s s' : Store β} {key pattern : String} {value : β}

theorem refl (h : Keyed.Ascending s.entries) : AgreeOn p now s s :=
  ⟨h, h, fun _ _ _ _ => rfl⟩

theorem symm (h : AgreeOn p now s s') : AgreeOn p now s' s :=
  ⟨h.ascending', h.ascending, fun later hlater key hkey => (h.shown later hlater key hkey).symm⟩

theorem mono (h : AgreeOn p now s s') (hle : now ≤ later) : AgreeOn p later s s' :=
  ⟨h.ascending, h.ascending', fun _ hlater => h.shown _ (Nat.le_trans hle hlater)⟩

/-- They have the same keys among those on which they agree. -/
theorem keys_eq (h : AgreeOn p now s s') (hle : now ≤ later) :
    (s.keys later).filter p = (s'.keys later).filter p := by
  refine Keyed.eq_of_ascending ((pairwise_keys h.ascending).filter p)
    ((pairwise_keys h.ascending').filter p) fun key => ?_
  rw [List.mem_filter, List.mem_filter, mem_keys h.ascending, mem_keys h.ascending']
  refine and_congr_left fun hkey => ?_
  rw [h.shown later hle key hkey]

/-! ## §1 Operations on one of them -/

theorem get_left (h : AgreeOn p now s s') (hle : now ≤ later) :
    AgreeOn p later (s.get later key).2 s' := by
  refine ⟨ascending_get h.ascending, h.ascending', fun time htime k hk => ?_⟩
  rw [shown_get h.ascending htime, h.shown time (Nat.le_trans hle htime) k hk]

theorem set_left (h : AgreeOn p now s s') (hle : now ≤ later) (hkey : p key = false) :
    AgreeOn p later (s.set horizon later key value ttl) s' := by
  refine ⟨ascending_set h.ascending, h.ascending', fun time htime k hk => ?_⟩
  have hne : k ≠ key := by
    rintro rfl
    rw [hkey] at hk
    cases hk
  rw [shown_set h.ascending htime, if_neg fun hand => hne hand.2, h.shown time (Nat.le_trans hle htime) k hk]

theorem deleteMatching_left (h : AgreeOn p now s s') (hle : now ≤ later)
    (hpattern : ∀ key, Text.Glob.covers pattern key = true → p key = false) {r : Store β}
    (hdelete : s.deleteMatching later pattern = .ok (n, r)) : AgreeOn p later r s' := by
  refine ⟨ascending_deleteMatching h.ascending hdelete, h.ascending', fun time htime k hk => ?_⟩
  have hspared : Text.Glob.covers pattern k = false := by
    rw [Bool.eq_false_iff]
    intro hcovers
    rw [hpattern k hcovers] at hk
    cases hk
  rw [shown_deleteMatching h.ascending hdelete, hspared, h.shown time (Nat.le_trans hle htime) k hk]
  rfl

/-! ## §2 The same operation on both -/

/-- Both give back the same. -/
theorem get_fst_eq (h : AgreeOn p now s s') (hle : now ≤ later) (hkey : p key = true) :
    (s.get later key).1 = (s'.get later key).1 := by
  rw [get_fst, get_fst, h.shown later hle key hkey]

theorem get (key : String) (h : AgreeOn p now s s') (hle : now ≤ later) :
    AgreeOn p later (s.get later key).2 (s'.get later key).2 :=
  ((h.get_left hle).symm.get_left (Nat.le_refl later)).symm

theorem set (h : AgreeOn p now s s') (hle : now ≤ later) :
    AgreeOn p later (s.set horizon later key value ttl) (s'.set horizon later key value ttl) := by
  refine ⟨ascending_set h.ascending, ascending_set h.ascending', fun time htime k hk => ?_⟩
  rw [shown_set h.ascending htime, shown_set h.ascending' htime,
    h.shown time (Nat.le_trans hle htime) k hk]

/-- A pattern that matches only keys on which they agree is refused by both, or as many keys are
deleted from both. -/
theorem deleteMatching (h : AgreeOn p now s s') (hle : now ≤ later)
    (hpattern : ∀ key, Text.Glob.covers pattern key = true → p key = true) :
    (∃ e, s.deleteMatching later pattern = .error e ∧ s'.deleteMatching later pattern = .error e) ∨
      ∃ n r r', s.deleteMatching later pattern = .ok (n, r) ∧
        s'.deleteMatching later pattern = .ok (n, r') ∧ AgreeOn p later r r' := by
  cases hdelete : s.deleteMatching later pattern with
  | error e =>
    exact Or.inl ⟨e, rfl, deleteMatching_eq_error.mpr (deleteMatching_eq_error.mp hdelete)⟩
  | ok deleted =>
    obtain ⟨n, r⟩ := deleted
    cases hdelete' : s'.deleteMatching later pattern with
    | error e =>
      rw [deleteMatching_eq_error.mpr (deleteMatching_eq_error.mp hdelete')] at hdelete
      cases hdelete
    | ok deleted' =>
      obtain ⟨n', r'⟩ := deleted'
      -- What the pattern matches is found among the keys on which the stores agree.
      have hmatched (s : Store β) : (s.keys later).filter (Text.Glob.covers pattern) =
          ((s.keys later).filter p).filter (Text.Glob.covers pattern) := by
        rw [List.filter_filter]
        refine List.filter_congr fun key _ => ?_
        cases hcovers : Text.Glob.covers pattern key with
        | false => rw [Bool.false_and]
        | true => rw [hpattern key hcovers, Bool.and_true]
      have hcount : n = n' := by
        rw [(deleteMatching_eq_ok hdelete).1, (deleteMatching_eq_ok hdelete').1, hmatched s,
          hmatched s', h.keys_eq hle]
      subst hcount
      refine Or.inr ⟨n, r, r', rfl, rfl, ascending_deleteMatching h.ascending hdelete,
        ascending_deleteMatching h.ascending' hdelete', fun time htime k hk => ?_⟩
      rw [shown_deleteMatching h.ascending hdelete, shown_deleteMatching h.ascending' hdelete',
        h.shown time (Nat.le_trans hle htime) k hk]

end AgreeOn

end SnapshotAnalytics.Store

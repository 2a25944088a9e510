import SnapshotAnalytics.Proofs.Cache.Store
import SnapshotAnalytics.Proofs.Text.Glob

/-!
# What a store shows

Under a key a store shows the value of its entry while that is live. Whether entries that are not live
are still there makes no difference to it, at the time and ever after. So reads show nothing new, a
write shows its own value until that expires, swept or not, a write that crashes shows nothing, and a
deletion hides what it matches.
-/

namespace SnapshotAnalytics

namespace Store

variable {β : Type} {s s' : Store β} {horizon now later ttl n : Nat} {key k pattern : String} {value : β}

/-- The value that is live under a key. -/
def shown (now : Nat) (key : String) (s : Store β) : Option β :=
  ((Keyed.find? key s.entries).filter (isLive now)).map (·.value)

/-- What is live at a time was live before. -/
theorem isLive_of_le (hle : now ≤ later) {v : Stored β} (h : isLive later v = true) :
    isLive now v = true :=
  decide_eq_true (Nat.lt_of_le_of_lt hle (of_decide_eq_true h))

/-! ## §1 Reads -/

/-- What is read is what is shown. -/
theorem get_fst (now : Nat) (key : String) (s : Store β) : (s.get now key).1 = s.shown now key := by
  unfold get shown
  cases Keyed.find? key s.entries with
  | none => rfl
  | some v => cases hlive : isLive now v <;> simp [hlive, Option.filter_some]

theorem ascending_get (h : Keyed.Ascending s.entries) :
    Keyed.Ascending (s.get now key).2.entries := by
  unfold get
  split
  · exact h
  · split
    · exact h
    · exact h.filter _

/-- A read takes away only what is not shown anyway. -/
theorem shown_get (h : Keyed.Ascending s.entries) (hle : now ≤ later) :
    (s.get now key).2.shown later k = s.shown later k := by
  unfold get
  split
  · rfl
  · rename_i v hfind
    split
    · rfl
    · rename_i hdead
      -- What is taken away has expired, so it is not shown from then on either.
      rw [shown, shown, Keyed.erase, Keyed.find?_filter h]
      by_cases hkey : key = k
      · subst hkey
        have hlater : isLive later v = false :=
          Bool.eq_false_iff.mpr fun hlive => hdead (isLive_of_le hle hlive)
        simp [hfind, Option.filter_some, hlater]
      · have hne : (compare key k != .eq) = true :=
          bne_iff_ne.mpr fun h => hkey (Std.LawfulEqOrd.eq_of_compare h)
        simp only [hne, Option.filter_filter, Bool.true_and]

/-! ## §2 Writes -/

theorem ascending_swept (h : Keyed.Ascending s.entries) : Keyed.Ascending (s.swept now) := by
  unfold swept
  split
  · exact h.filter _
  · exact h

/-- A sweep takes away what is not live, which is not shown later either. -/
theorem filter_find?_swept (h : Keyed.Ascending s.entries) (hle : now ≤ later) :
    (Keyed.find? k (s.swept now)).filter (isLive later) =
      (Keyed.find? k s.entries).filter (isLive later) := by
  unfold swept
  split
  · rw [live, Keyed.find?_filter h, Option.filter_filter]
    congr 1
    funext v
    cases hlive : isLive later v with
    | false => rw [Bool.and_false]
    | true => rw [isLive_of_le hle hlive, Bool.true_and]
  · rfl

theorem ascending_set (h : Keyed.Ascending s.entries) :
    Keyed.Ascending (s.set horizon now key value ttl).entries := by
  unfold set
  split
  · exact (ascending_swept h).insert key _
  · exact ascending_swept h

/-- A write that fits shows its value until that expires and leaves all else as it was, swept or not;
one that crashes leaves all as it was. -/
theorem shown_set (h : Keyed.Ascending s.entries) (hle : now ≤ later) :
    (s.set horizon now key value ttl).shown later k =
      if fits horizon now ttl = true ∧ k = key then
        if later < now + ttl then some value else none
      else s.shown later k := by
  unfold set
  cases fits horizon now ttl with
  | false =>
    rw [if_neg Bool.false_ne_true, if_neg fun hand => Bool.false_ne_true hand.1, shown, shown,
      filter_find?_swept h hle]
  | true =>
    rw [if_pos rfl, shown, Keyed.find?_insert]
    -- The value is shown under its own key only. What is swept before has expired.
    by_cases hkey : k = key
    · rw [if_pos hkey, if_pos ⟨rfl, hkey⟩]
      simp [Option.filter, isLive]
    · rw [if_neg hkey, if_neg fun hand => hkey hand.2, shown, filter_find?_swept h hle]

/-! ## §3 Deletions -/

/-- A deletion removes the entries that its pattern matches and counts the keys among them that are
live. -/
theorem deleteMatching_eq_ok (h : s.deleteMatching now pattern = .ok (n, s')) :
    n = ((s.keys now).filter (Text.Glob.covers pattern)).length ∧
      s'.entries = s.entries.filter fun e => !Text.Glob.covers pattern e.1 := by
  unfold deleteMatching at h
  split at h
  · cases h
  · rename_i tokens htokens
    -- A pattern that is read accepts a key exactly if it covers it.
    have hcovers : Text.Glob.covers pattern = fun key => Text.Glob.accepts tokens key.toList := by
      funext key
      rw [Text.Glob.covers, htokens, Text.Glob.accepts_eq_standFor]
    cases h
    rw [hcovers]
    refine ⟨?_, rfl⟩
    rw [keys, List.filter_map, List.length_map, live, List.filter_filter]
    rfl

/-- A deletion fails only because of its pattern. -/
theorem deleteMatching_eq_error {e : Text.GlobError} :
    s.deleteMatching now pattern = .error e ↔ Text.Glob.read pattern = .error e := by
  unfold deleteMatching
  cases Text.Glob.read pattern <;> simp

theorem ascending_deleteMatching (h : Keyed.Ascending s.entries)
    (hdelete : s.deleteMatching now pattern = .ok (n, s')) : Keyed.Ascending s'.entries := by
  rw [(deleteMatching_eq_ok hdelete).2]
  exact h.filter _

/-- A deletion hides what its pattern matches and leaves all else as it was. -/
theorem shown_deleteMatching (h : Keyed.Ascending s.entries)
    (hdelete : s.deleteMatching now pattern = .ok (n, s')) :
    s'.shown later k = if Text.Glob.covers pattern k then none else s.shown later k := by
  rw [shown, (deleteMatching_eq_ok hdelete).2, Keyed.find?_filter h]
  cases hcovers : Text.Glob.covers pattern k <;> simp [shown, hcovers]

/-! ## §4 Keys -/

/-- The keys are in ascending order, each once. -/
theorem pairwise_keys (h : Keyed.Ascending s.entries) :
    (s.keys now).Pairwise fun key key' => compare key key' = .lt :=
  List.pairwise_map.mpr (h.filter _)

/-- The keys are those under which something is shown. -/
theorem mem_keys (h : Keyed.Ascending s.entries) :
    key ∈ s.keys now ↔ (s.shown now key).isSome = true := by
  rw [keys, List.mem_map, shown, Option.isSome_map, Option.isSome_iff_exists]
  simp only [Option.filter_eq_some_iff, Keyed.find?_eq_some_iff h, live, List.mem_filter]
  constructor
  · rintro ⟨⟨key, v⟩, ⟨hmem, hlive⟩, rfl⟩
    exact ⟨v, hmem, hlive⟩
  · rintro ⟨v, hmem, hlive⟩
    exact ⟨(key, v), ⟨hmem, hlive⟩, rfl⟩

theorem size_eq (now : Nat) (s : Store β) : s.size now = (s.keys now).length :=
  (List.length_map _).symm

end Store

end SnapshotAnalytics

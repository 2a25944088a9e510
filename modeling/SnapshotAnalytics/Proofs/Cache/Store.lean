import SnapshotAnalytics.Cache.Store
import SnapshotAnalytics.Proofs.Data.Keyed

/-!
# What the store holds

Where the entries of a store come from: reading and deleting bring nothing in, and a write brings in
one entry. What a read gives back is the value of an entry under the very key that was asked for.
-/

namespace SnapshotAnalytics.Store

variable {β : Type} {s s' : Store β} {horizon now ttl n : Nat} {key pattern : String} {value : β}
  {e : String × Stored β}

theorem mem_of_mem_live (h : e ∈ s.live now) : e ∈ s.entries :=
  (List.mem_filter.mp h).1

/-- What is read under a key is stored under it. -/
theorem mem_of_get (h : (s.get now key).1 = some value) :
    ∃ stored, (key, stored) ∈ s.entries ∧ stored.value = value := by
  -- What is found is given back only while it is live.
  unfold get at h
  cases hfind : Keyed.find? key s.entries with
  | none => simp [hfind] at h
  | some stored =>
    refine ⟨stored, Keyed.mem_of_find? hfind, ?_⟩
    by_cases hlive : isLive now stored = true
    · simpa [hfind, hlive] using h
    · simp [hfind, hlive] at h

/-- Reading brings nothing in. -/
theorem mem_of_mem_get (h : e ∈ (s.get now key).2.entries) : e ∈ s.entries := by
  unfold get at h
  split at h
  · exact h
  · split at h
    · exact h
    · exact Keyed.mem_of_mem_erase h

/-- A sweep takes entries away. -/
theorem mem_of_mem_swept (h : e ∈ s.swept now) : e ∈ s.entries := by
  unfold swept at h
  split at h
  · exact mem_of_mem_live h
  · exact h

/-- A write brings in at most one entry. -/
theorem mem_of_mem_set (h : e ∈ (s.set horizon now key value ttl).entries) :
    e = (key, ⟨value, now + ttl⟩) ∨ e ∈ s.entries := by
  unfold set at h
  split at h
  · exact (Keyed.mem_of_mem_insert h).imp id mem_of_mem_swept
  · exact Or.inr (mem_of_mem_swept h)

/-- Deleting brings nothing in. -/
theorem mem_of_mem_deleteMatching (hdel : s.deleteMatching now pattern = .ok (n, s'))
    (h : e ∈ s'.entries) : e ∈ s.entries := by
  unfold deleteMatching at hdel
  split at hdel
  · cases hdel
  · cases hdel
    exact (List.mem_filter.mp h).1

end SnapshotAnalytics.Store

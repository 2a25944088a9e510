import SnapshotAnalytics.Data.Keyed
import Mathlib.Data.List.Basic
import Mathlib.Data.List.Induction
import Mathlib.Data.List.Nodup

/-!
# What keyed lists hold

Insertion, look-up and removal in terms of the entries of a keyed list, and of what is found under a
key. Where nothing is said of the order, it only has to tell equal keys from different ones.
-/

namespace SnapshotAnalytics.Keyed

variable {κ : Type} {α : Type} [Ord κ]

/-! ## §1 Entries -/

/-- An insertion brings in the new entry and no other. -/
theorem mem_of_mem_insert {k : κ} {v : α} {e : κ × α} {entries : List (κ × α)}
    (h : e ∈ insert k v entries) : e = (k, v) ∨ e ∈ entries := by
  -- The entry goes in front of the first larger key, in place of an equal one, or further back.
  induction entries with
  | nil =>
    exact Or.inl (List.mem_singleton.mp h)
  | cons entry rest ih =>
    obtain ⟨k', v'⟩ := entry
    cases hk : compare k k' with
    | lt =>
      simp only [insert, hk] at h
      exact List.mem_cons.mp h
    | eq =>
      simp only [insert, hk] at h
      rcases List.mem_cons.mp h with rfl | hrest
      · exact Or.inl rfl
      · exact Or.inr (List.mem_cons_of_mem _ hrest)
    | gt =>
      simp only [insert, hk] at h
      rcases List.mem_cons.mp h with rfl | hrest
      · exact Or.inr (List.mem_cons_self ..)
      · rcases ih hrest with rfl | hmem
        · exact Or.inl rfl
        · exact Or.inr (List.mem_cons_of_mem _ hmem)

theorem mem_insert_self (k : κ) (v : α) (entries : List (κ × α)) : (k, v) ∈ insert k v entries := by
  induction entries with
  | nil => exact List.mem_cons_self ..
  | cons entry rest ih =>
    obtain ⟨k', v'⟩ := entry
    cases hk : compare k k' with
    | lt =>
      simp only [insert, hk]
      exact List.mem_cons_self ..
    | eq =>
      simp only [insert, hk]
      exact List.mem_cons_self ..
    | gt =>
      simp only [insert, hk]
      exact List.mem_cons_of_mem _ ih

/-- A key that is there stays there. -/
theorem key_mem_insert [Std.LawfulEqOrd κ] {k : κ} (v : α) {key : κ} {entries : List (κ × α)}
    (h : ∃ e ∈ entries, e.1 = key) : ∃ e ∈ insert k v entries, e.1 = key := by
  induction entries with
  | nil =>
    obtain ⟨e, he, _⟩ := h
    cases he
  | cons entry rest ih =>
    obtain ⟨k', v'⟩ := entry
    obtain ⟨e, he, hkey⟩ := h
    cases hk : compare k k' with
    | lt =>
      simp only [insert, hk]
      exact ⟨e, List.mem_cons_of_mem _ he, hkey⟩
    | eq =>
      -- The entry that is replaced has the key of the new one.
      simp only [insert, hk]
      rcases List.mem_cons.mp he with rfl | hrest
      · exact ⟨(k, v), List.mem_cons_self .., (Std.LawfulEqOrd.eq_of_compare hk).trans hkey⟩
      · exact ⟨e, List.mem_cons_of_mem _ hrest, hkey⟩
    | gt =>
      simp only [insert, hk]
      rcases List.mem_cons.mp he with rfl | hrest
      · exact ⟨_, List.mem_cons_self .., hkey⟩
      · obtain ⟨e', he', hkey'⟩ := ih ⟨e, hrest, hkey⟩
        exact ⟨e', List.mem_cons_of_mem _ he', hkey'⟩

/-- The value that is found under a key is stored under that very key. -/
theorem mem_of_find? [Std.LawfulEqOrd κ] {k : κ} {v : α} {entries : List (κ × α)}
    (h : find? k entries = some v) : (k, v) ∈ entries := by
  unfold find? at h
  obtain ⟨e, he, rfl⟩ := Option.map_eq_some_iff.mp h
  have hk : k = e.1 := by
    have hcmp := List.find?_some he
    exact Std.LawfulEqOrd.eq_of_compare (by simpa using hcmp)
  subst hk
  exact List.mem_of_find?_eq_some he

/-- Nothing new is there after a removal. -/
theorem mem_of_mem_erase {k : κ} {e : κ × α} {entries : List (κ × α)}
    (h : e ∈ erase k entries) : e ∈ entries :=
  (List.mem_filter.mp h).1

/-! ## §2 Ascending lists -/

/-- Keys are in ascending order, so there is one entry for each of them. -/
def Ascending (entries : List (κ × α)) : Prop :=
  entries.Pairwise fun e e' => compare e.1 e'.1 = .lt

theorem Ascending.filter {entries : List (κ × α)} (h : Ascending entries) (p : κ × α → Bool) :
    Ascending (entries.filter p) :=
  List.Pairwise.filter p h

theorem Ascending.insert [Std.TransOrd κ] {entries : List (κ × α)} (h : Ascending entries) (k : κ)
    (v : α) : Ascending (insert k v entries) := by
  induction entries with
  | nil => exact List.pairwise_singleton _ _
  | cons entry rest ih =>
    obtain ⟨k', v'⟩ := entry
    obtain ⟨hfirst, hrest⟩ := List.pairwise_cons.mp h
    -- The entry goes in front, takes the place of the first one or goes further behind.
    cases hk : compare k k' with
    | lt =>
      simp only [Keyed.insert, hk]
      refine List.pairwise_cons.mpr ⟨fun e he => ?_, h⟩
      rcases List.mem_cons.mp he with rfl | he
      · exact hk
      · exact Std.TransCmp.lt_trans hk (hfirst e he)
    | eq =>
      simp only [Keyed.insert, hk]
      refine List.pairwise_cons.mpr ⟨fun e he => ?_, hrest⟩
      exact Std.TransCmp.lt_of_eq_of_lt hk (hfirst e he)
    | gt =>
      simp only [Keyed.insert, hk]
      refine List.pairwise_cons.mpr ⟨fun e he => ?_, ih hrest⟩
      rcases mem_of_mem_insert he with rfl | he
      · exact Std.OrientedCmp.lt_of_gt hk
      · exact hfirst e he

/-- No key is below itself, so an ascending list has none of them twice. -/
theorem nodup_of_ascending [Std.ReflOrd κ] {keys : List κ}
    (h : keys.Pairwise fun k k' => compare k k' = .lt) : keys.Nodup := by
  refine h.imp fun {k k'} hlt hsame => ?_
  rw [hsame, Std.ReflOrd.compare_self] at hlt
  cases hlt

/-- There is only one ascending list of given keys. -/
theorem eq_of_ascending [Std.TransOrd κ] {keys keys' : List κ}
    (h : keys.Pairwise fun k k' => compare k k' = .lt)
    (h' : keys'.Pairwise fun k k' => compare k k' = .lt) (hmem : ∀ k, k ∈ keys ↔ k ∈ keys') :
    keys = keys' := by
  refine List.Perm.eq_of_pairwise (fun k k' _ _ hlt hgt => ?_) h h' ?_
  · rw [Std.OrientedCmp.gt_of_lt hlt] at hgt
    cases hgt
  · exact (List.perm_ext_iff_of_nodup (nodup_of_ascending h) (nodup_of_ascending h')).mpr hmem

/-! ## §3 What is found -/

section

variable [Std.LawfulEqOrd κ] [DecidableEq κ]

theorem find?_cons (k k' : κ) (v : α) (entries : List (κ × α)) :
    find? k ((k', v) :: entries) = if k = k' then some v else find? k entries := by
  rw [find?, List.find?_cons]
  by_cases hk : k = k'
  · subst hk
    rw [Std.ReflOrd.compare_self, if_pos rfl]
    rfl
  · have hne : (compare k k' == .eq) = false := by
      simpa using fun h => hk (Std.LawfulEqOrd.eq_of_compare h)
    rw [hne, if_neg hk]
    rfl

theorem find?_insert (k key : κ) (v : α) (entries : List (κ × α)) :
    find? k (insert key v entries) = if k = key then some v else find? k entries := by
  induction entries with
  | nil => exact find?_cons k key v []
  | cons entry rest ih =>
    obtain ⟨k', v'⟩ := entry
    cases hk : compare key k' with
    | lt => simp only [insert, hk, find?_cons]
    | eq =>
      -- The entry that is replaced has the key of the new one.
      obtain rfl := Std.LawfulEqOrd.eq_of_compare hk
      simp only [insert, hk, find?_cons]
      split <;> rfl
    | gt =>
      have hne : key ≠ k' := by
        rintro rfl
        rw [Std.ReflOrd.compare_self] at hk
        cases hk
      simp only [insert, hk, find?_cons, ih]
      by_cases hkey : k = key
      · subst hkey
        rw [if_neg hne, if_pos rfl, if_pos rfl]
      · rw [if_neg hkey, if_neg hkey]

/-- In an ascending list nothing is found under a key but its entry. -/
theorem find?_eq_some_iff {entries : List (κ × α)} (h : Ascending entries) {k : κ} {v : α} :
    find? k entries = some v ↔ (k, v) ∈ entries := by
  refine ⟨mem_of_find?, fun hv => ?_⟩
  induction entries with
  | nil => cases hv
  | cons entry rest ih =>
    obtain ⟨k', v'⟩ := entry
    obtain ⟨hfirst, hrest⟩ := List.pairwise_cons.mp h
    rw [find?_cons]
    rcases List.mem_cons.mp hv with hsame | hbehind
    · cases hsame
      rw [if_pos rfl]
    · -- Every key behind the first one is larger than it.
      have hne : k ≠ k' := by
        rintro rfl
        have hlt := hfirst _ hbehind
        rw [Std.ReflOrd.compare_self] at hlt
        cases hlt
      rw [if_neg hne, ih hrest hbehind]

theorem find?_filter {entries : List (κ × α)} (h : Ascending entries) (p : κ × α → Bool) (k : κ) :
    find? k (entries.filter p) = (find? k entries).filter fun v => p (k, v) := by
  ext v
  rw [find?_eq_some_iff (h.filter p), List.mem_filter, Option.filter_eq_some_iff,
    find?_eq_some_iff h]

/-- Something is found under a key exactly when the key is there. -/
theorem exists_find?_iff {k : κ} {entries : List (κ × α)} :
    (∃ v, find? k entries = some v) ↔ k ∈ entries.map (·.1) := by
  induction entries with
  | nil => simp [find?]
  | cons entry rest ih =>
    obtain ⟨k', v'⟩ := entry
    rw [find?_cons, List.map_cons, List.mem_cons, ← ih]
    by_cases hk : k = k'
    · simp [hk]
    · simp [hk]

/-- Inserted entries, one after the other, go before those that were there. -/
theorem find?_foldl_insert {entries : List (κ × α)} (h : Ascending entries) (k : κ)
    (there : List (κ × α)) :
    find? k (entries.foldl (fun m e => insert e.1 e.2 m) there) =
      (find? k entries).or (find? k there) := by
  induction entries generalizing there with
  | nil => rfl
  | cons entry rest ih =>
    obtain ⟨k', v'⟩ := entry
    obtain ⟨hfirst, hrest⟩ := List.pairwise_cons.mp h
    rw [List.foldl_cons, ih hrest, find?_insert, find?_cons]
    by_cases hk : k = k'
    · -- The key is not inserted a second time.
      subst hk
      have hnone : find? k rest = none := by
        rw [← Option.not_isSome_iff_eq_none, Option.isSome_iff_exists]
        rintro ⟨v, hv⟩
        have hlt := hfirst _ (mem_of_find? hv)
        rw [Std.ReflOrd.compare_self] at hlt
        cases hlt
      rw [hnone, if_pos rfl, if_pos rfl]
      rfl
    · rw [if_neg hk, if_neg hk]

end

/-! ## §4 Maps of given entries -/

section

variable {k : κ} {entries : List (κ × α)}

theorem mem_keys_insert [Std.LawfulEqOrd κ] {key : κ} {v : α} :
    k ∈ (insert key v entries).map (·.1) ↔ k = key ∨ k ∈ entries.map (·.1) := by
  simp only [List.mem_map]
  constructor
  · rintro ⟨e, he, rfl⟩
    rcases mem_of_mem_insert he with rfl | hold
    · exact Or.inl rfl
    · exact Or.inr ⟨e, hold, rfl⟩
  · rintro (rfl | hold)
    · exact ⟨_, mem_insert_self .., rfl⟩
    · exact key_mem_insert v hold

theorem ofList_append_singleton (entries : List (κ × α)) (e : κ × α) :
    ofList (entries ++ [e]) = insert e.1 e.2 (ofList entries) := by
  simp [ofList]

theorem Ascending.ofList [Std.TransOrd κ] (entries : List (κ × α)) : Ascending (ofList entries) := by
  induction entries using List.reverseRecOn with
  | nil => exact List.Pairwise.nil
  | append_singleton entries e ih =>
    rw [ofList_append_singleton]
    exact ih.insert e.1 e.2

/-- A key above all others goes to the end. -/
theorem insert_of_forall_lt [Std.TransOrd κ] {v : α} (h : ∀ e ∈ entries, compare e.1 k = .lt) :
    insert k v entries = entries ++ [(k, v)] := by
  induction entries with
  | nil => rfl
  | cons entry rest ih =>
    obtain ⟨hfirst, hrest⟩ := List.forall_mem_cons.mp h
    have hgt : compare k entry.1 = .gt := Std.OrientedCmp.gt_of_lt hfirst
    simp only [insert, hgt, ih hrest, List.cons_append]

/-- Entries in ascending order are the map with these entries. -/
theorem ofList_eq_self [Std.TransOrd κ] (h : Ascending entries) : ofList entries = entries := by
  induction entries using List.reverseRecOn with
  | nil => rfl
  | append_singleton entries e ih =>
    obtain ⟨hentries, -, hlast⟩ := List.pairwise_append.mp h
    rw [ofList_append_singleton, ih hentries]
    exact insert_of_forall_lt fun e' he' => hlast e' he' e (List.mem_singleton.mpr rfl)

/-- The map has no entries but the given ones. -/
theorem mem_of_mem_ofList {e : κ × α} (h : e ∈ ofList entries) : e ∈ entries := by
  induction entries using List.reverseRecOn with
  | nil => exact h
  | append_singleton entries last ih =>
    rw [ofList_append_singleton] at h
    rcases mem_of_mem_insert h with rfl | hmem
    · exact List.mem_append_right _ (List.mem_singleton.mpr rfl)
    · exact List.mem_append_left _ (ih hmem)

theorem mem_keys_ofList [Std.LawfulEqOrd κ] :
    k ∈ (ofList entries).map (·.1) ↔ k ∈ entries.map (·.1) := by
  induction entries using List.reverseRecOn with
  | nil => rfl
  | append_singleton entries e ih =>
    rw [ofList_append_singleton, mem_keys_insert, ih]
    simp [or_comm]

/-- What is found under a key in the map of entries that agree on it. -/
theorem find?_ofList_eq_some_iff [Std.TransOrd κ] [Std.LawfulEqOrd κ] [DecidableEq κ] {v : α}
    (hagree : ∀ v v', (k, v) ∈ entries → (k, v') ∈ entries → v = v') :
    find? k (ofList entries) = some v ↔ (k, v) ∈ entries := by
  refine ⟨fun h => mem_of_mem_ofList (mem_of_find? h), fun h => ?_⟩
  -- Some value is found under the key, and it can only be this one.
  obtain ⟨v', hfound⟩ := exists_find?_iff.mpr (mem_keys_ofList.mpr (List.mem_map_of_mem h))
  rw [hfound, hagree v' v (mem_of_mem_ofList (mem_of_find? hfound)) h]

/-! ## §5 Gathered values -/

theorem gather_append_singleton (entries : List (κ × α)) (e : κ × α) :
    gather (entries ++ [e]) =
      insert e.1 ((find? e.1 (gather entries)).getD [] ++ [e.2]) (gather entries) := by
  simp [gather]

theorem Ascending.gather [Std.TransOrd κ] (entries : List (κ × α)) : Ascending (gather entries) := by
  induction entries using List.reverseRecOn with
  | nil => exact List.Pairwise.nil
  | append_singleton entries e ih =>
    rw [gather_append_singleton]
    exact ih.insert ..

variable [Std.LawfulEqOrd κ]

theorem mem_keys_gather : k ∈ (gather entries).map (·.1) ↔ k ∈ entries.map (·.1) := by
  induction entries using List.reverseRecOn with
  | nil => rfl
  | append_singleton entries e ih =>
    rw [gather_append_singleton, mem_keys_insert, ih]
    simp [or_comm]

theorem nodup_keys_gather [Std.TransOrd κ] (entries : List (κ × α)) :
    ((gather entries).map (·.1)).Nodup :=
  nodup_of_ascending (List.pairwise_map.mpr (Ascending.gather entries))

variable [DecidableEq κ]

/-- The values under a key, in the order they came in. -/
def valuesUnder (k : κ) (entries : List (κ × α)) : List α :=
  (entries.filter fun e => e.1 = k).map (·.2)

omit [Ord κ] [Std.LawfulEqOrd κ] in
theorem mem_of_mem_valuesUnder {v : α} (h : v ∈ valuesUnder k entries) : (k, v) ∈ entries := by
  obtain ⟨e, he, rfl⟩ := List.mem_map.mp h
  obtain ⟨hmem, hkey⟩ := List.mem_filter.mp he
  obtain rfl : e.1 = k := by simpa using hkey
  exact hmem

/-- What is gathered under a key: the values that came in under it, so far as there are any. -/
theorem getD_find?_gather (k : κ) (entries : List (κ × α)) :
    (find? k (gather entries)).getD [] = valuesUnder k entries := by
  induction entries using List.reverseRecOn with
  | nil => rfl
  | append_singleton entries e ih =>
    rw [gather_append_singleton, find?_insert]
    by_cases hk : k = e.1
    · subst hk
      simp [ih, valuesUnder]
    · simp [hk, ih, valuesUnder, Ne.symm hk]

/-- **Values are gathered under the keys they came with**, in their order. -/
theorem mem_gather [Std.TransOrd κ] {values : List α} :
    (k, values) ∈ gather entries ↔ k ∈ entries.map (·.1) ∧ values = valuesUnder k entries := by
  have hvalues {values : List α} (h : (k, values) ∈ gather entries) :
      values = valuesUnder k entries := by
    rw [← getD_find?_gather, (find?_eq_some_iff (.gather entries)).mpr h, Option.getD_some]
  constructor
  · intro h
    exact ⟨mem_keys_gather.mp (List.mem_map_of_mem h), hvalues h⟩
  · rintro ⟨hk, rfl⟩
    obtain ⟨⟨_, values⟩, hmem, rfl⟩ := List.mem_map.mp (mem_keys_gather.mpr hk)
    rw [← hvalues hmem]
    exact hmem

/-! ## §6 Parts by key -/

/-- A list is parted by keys: every element is in the part of its key, and in no other. -/
theorem perm_flatMap_filter {ι β : Type} [DecidableEq ι] (key : β → ι) {keys : List ι}
    (hkeys : keys.Nodup) {xs : List β} (hxs : ∀ x ∈ xs, key x ∈ keys) :
    (keys.flatMap fun k => xs.filter fun x => key x = k).Perm xs := by
  induction keys generalizing xs with
  | nil =>
    have hempty : xs = [] := List.eq_nil_iff_forall_not_mem.mpr fun x hx => nomatch hxs x hx
    rw [hempty]
    exact .nil
  | cons k keys ih =>
    obtain ⟨hk, hkeys⟩ := List.nodup_cons.mp hkeys
    -- The other parts are those of the elements that are not under the first key.
    have hothers : (keys.flatMap fun k' => xs.filter fun x => key x = k') =
        keys.flatMap fun k' => (xs.filter fun x => !decide (key x = k)).filter fun x => key x = k' := by
      apply List.flatMap_congr
      intro k' hk'
      rw [List.filter_filter]
      apply List.filter_congr
      intro x _
      by_cases hx : key x = k'
      · have hne : key x ≠ k := fun hsame => hk (hsame ▸ hx ▸ hk')
        simp [hx, hx ▸ hne]
      · simp [hx]
    rw [List.flatMap_cons, hothers]
    refine (List.Perm.append_left _ (ih hkeys fun x hx => ?_)).trans (List.filter_append_perm _ xs)
    obtain ⟨hx, hne⟩ := List.mem_filter.mp hx
    rcases List.mem_cons.mp (hxs x hx) with hsame | hmem
    · simp [hsame] at hne
    · exact hmem

/-- Nothing is lost or added by gathering: every entry is among the values of its key. -/
theorem perm_flatMap_gather [Std.TransOrd κ] (entries : List (κ × α)) :
    ((gather entries).flatMap fun (k, values) => values.map fun v => (k, v)).Perm entries := by
  have hparts : ((gather entries).flatMap fun (k, values) => values.map fun v => (k, v)) =
      ((gather entries).map (·.1)).flatMap fun k => entries.filter fun e => e.1 = k := by
    rw [List.flatMap_map]
    apply List.flatMap_congr
    rintro ⟨k, values⟩ hmem
    obtain ⟨_, rfl⟩ := mem_gather.mp hmem
    show (valuesUnder k entries).map (fun v => (k, v)) = _
    rw [valuesUnder, List.map_map]
    -- An entry under a key is the key and its value.
    conv_rhs => rw [← List.map_id (entries.filter fun e => e.1 = k)]
    apply List.map_congr_left
    intro e he
    obtain rfl : e.1 = k := by simpa using (List.mem_filter.mp he).2
    rfl
  rw [hparts]
  apply perm_flatMap_filter
  · exact nodup_keys_gather entries
  · intro e he
    exact mem_keys_gather.mpr (List.mem_map_of_mem he)

/-- The entries of a map that collects values under their keys, in whatever order the map lists them. -/
structure Collects (buckets : List (κ × List α)) (entries : List (κ × α)) : Prop where
  nodup : (buckets.map (·.1)).Nodup
  mem : ∀ k values, (k, values) ∈ buckets ↔
    k ∈ entries.map (·.1) ∧ values = valuesUnder k entries

theorem collects_gather [Std.TransOrd κ] (entries : List (κ × α)) :
    Collects (gather entries) entries :=
  ⟨nodup_keys_gather entries, fun _ _ => mem_gather⟩

omit [Ord κ] [Std.LawfulEqOrd κ] in
/-- Two maps that collect the same values differ in their order alone. -/
theorem Collects.perm {buckets buckets' : List (κ × List α)} (h : Collects buckets entries)
    (h' : Collects buckets' entries) : buckets.Perm buckets' := by
  rw [List.perm_ext_iff_of_nodup (List.Nodup.of_map _ h.nodup) (List.Nodup.of_map _ h'.nodup)]
  rintro ⟨k, values⟩
  rw [h.mem, h'.mem]

end

end SnapshotAnalytics.Keyed

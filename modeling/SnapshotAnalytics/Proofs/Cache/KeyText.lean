import SnapshotAnalytics.Cache.Key
import SnapshotAnalytics.Proofs.Calendar.Text
import SnapshotAnalytics.Proofs.Text.Hexadecimal
import SnapshotAnalytics.Proofs.Text.Splitting

/-!
# Texts of cache keys

The text of a key is made up of parts with colons between them. As long as no part has a colon of its
own, the text can be cut into these parts again, so a key is determined by its text.
-/

namespace SnapshotAnalytics

/-! ## §1 Parts without colons -/

theorem Date.colon_not_mem_text (d : Date) : ':' ∉ d.text.toList := by
  intro h
  rcases d.mem_text h with hdigit | hminus | hplus
  · exact absurd hdigit (by decide)
  · exact absurd hminus (by decide)
  · exact absurd hplus (by decide)

theorem Direction.name_injective : Function.Injective Direction.name := by
  intro direction direction' h
  cases direction <;> cases direction'
  case backward.backward | forward.forward => rfl
  all_goals exact absurd h (by decide)

namespace CacheKey

theorem colon_not_mem_fingerprint (j : Json) : ':' ∉ (fingerprint j).toList := by
  intro h
  rw [fingerprint, Digest.shortDigest, String.toList_ofList] at h
  exact absurd (Text.isAlphanum_of_mem_hex h) (by decide)

/-! ## §2 Keys and their parts -/

/-- The parts of a key. -/
def parts : CacheKey → List String
  | breakdown table group snapshot spec filters =>
    ["grouped", table, group, snapshot.text, spec, filters]
  | statCard table snapshot spec filters => ["stat", table, snapshot.text, spec, filters]
  | history table base spec filters => ["historical", table, base.text, spec, filters]
  | maturity table snapshot spec filters => ["future", table, snapshot.text, spec, filters]
  | resolution table direction target => ["snapshot", table, direction.name, target.text]

/-- A key whose parts have no colons. -/
def IsPlain (k : CacheKey) : Prop :=
  ∀ part ∈ k.parts, ':' ∉ part.toList

/-- The text of a key is its parts with colons between them. -/
theorem toList_text (k : CacheKey) :
    k.text.toList = [':'].intercalate (k.parts.map String.toList) := by
  -- The equations of `text` are slow to come by, so its cases are opened in place.
  unfold text
  cases k <;> simp [parts, List.intercalate_cons_cons, toString]

/-- A key that is derived from a query differs from the others in its first character. -/
theorem derived_ne_text (q : Query) (k : CacheKey) : derived q ≠ k.text := by
  intro h
  have hderived : (derived q).toList.head? = some 'q' := by simp [derived]
  rw [h, toList_text] at hderived
  cases k <;> simp [parts, List.intercalate_cons_cons] at hderived

/-- Keys that are alike but for a date have the same text only for the same date, whether or not their
parts have colons. -/
theorem date_eq_of_text_eq {k k' : CacheKey} {front back : List String} {d d' : Date}
    (hk : k.parts = front ++ d.text :: back) (hk' : k'.parts = front ++ d'.text :: back)
    (h : k.text = k'.text) : d = d' := by
  have hlists := congrArg String.toList h
  rw [toList_text, toList_text, hk, hk', List.map_append, List.map_append, List.map_cons,
    List.map_cons] at hlists
  exact Date.text_injective (String.toList_inj.mp (Text.eq_of_intercalate_middle_eq hlists))

/-- A key is determined by its parts. -/
theorem parts_injective : Function.Injective parts := by
  intro k k' h
  -- The first part names the kind, so keys of different kinds clash there; the others are compared
  -- part by part, dates and directions by their texts.
  cases k <;> cases k' <;>
    simp only [parts, List.cons.injEq, and_true, true_and, reduceCtorEq, and_false, false_and,
      String.reduceEq] at h
  case breakdown.breakdown =>
    obtain ⟨rfl, rfl, hsnapshot, rfl, rfl⟩ := h
    rw [Date.text_injective hsnapshot]
  case statCard.statCard =>
    obtain ⟨rfl, hsnapshot, rfl, rfl⟩ := h
    rw [Date.text_injective hsnapshot]
  case history.history =>
    obtain ⟨rfl, hbase, rfl, rfl⟩ := h
    rw [Date.text_injective hbase]
  case maturity.maturity =>
    obtain ⟨rfl, hsnapshot, rfl, rfl⟩ := h
    rw [Date.text_injective hsnapshot]
  case resolution.resolution =>
    obtain ⟨rfl, hdirection, htarget⟩ := h
    rw [Direction.name_injective hdirection, Date.text_injective htarget]

/-- **Keys are determined by their texts**, as long as their parts have no colons. -/
theorem eq_of_text_eq {k k' : CacheKey} (hk : k.IsPlain) (hk' : k'.IsPlain)
    (h : k.text = k'.text) : k = k' := by
  have hfree (key : CacheKey) (hkey : key.IsPlain) :
      ∀ part ∈ key.parts.map String.toList, ':' ∉ part := by
    intro part hpart
    obtain ⟨s, hs, rfl⟩ := List.mem_map.mp hpart
    exact hkey s hs
  -- Joining is undone only for lists that are not empty.
  have hne (key : CacheKey) : key.parts.map String.toList ≠ [] := by
    cases key <;> exact List.cons_ne_nil _ _
  have hlists : k.parts.map String.toList = k'.parts.map String.toList := by
    apply Text.eq_of_intercalate_eq (hfree k hk) (hne k) (hfree k' hk') (hne k')
    rw [← toList_text, ← toList_text, h]
  exact parts_injective ((List.map_inj_right fun _ _ => String.toList_inj.mp).mp hlists)

end CacheKey

end SnapshotAnalytics

import SnapshotAnalytics.Measure.Basic
import SnapshotAnalytics.Measure.Ranking
import SnapshotAnalytics.Proofs.Json.Records
import SnapshotAnalytics.Proofs.Json.RoundTrip

/-!
# Reading written measures

A measure is read back from its JSON, as a record of its own or as part of a record that takes in its
members.
-/

namespace SnapshotAnalytics

open Json.Draft

/-! ## §1 Names -/

theorem Aggregation.ofName?_name (a : Aggregation) : ofName? a.name = some a := by
  cases a <;> rfl

theorem RankBy.ofName?_name (rankBy : RankBy) : ofName? rankBy.name = some rankBy := by
  cases rankBy <;> rfl

theorem OrderDirection.ofName?_name (direction : OrderDirection) :
    ofName? direction.name = some direction := by
  cases direction <;> rfl

/-! ## §2 Measures -/

namespace Measure

/-- The slots of a written measure. -/
def slots (m : Measure) : List (Option Json.Draft) :=
  [some (.text m.field), some (.text m.aggregation.name), m.weight.map .text]

theorem ofSlots?_slots {aggregation? : Json.Draft → Option Aggregation} {m : Measure}
    (h : aggregation? (.text m.aggregation.name) = some m.aggregation) :
    ofSlots? aggregation? m.slots = some m := by
  simp [slots, ofSlots?, Slot.required, text?, h, optional_text]

theorem ofMergedSlots?_slots (m : Measure) : ofMergedSlots? m.slots = some m :=
  ofSlots?_slots m.aggregation.ofName?_name

/-- A measure is read back from its JSON. -/
theorem ofDraft?_toJson (m : Measure) : ofDraft? (ofValue m.toJson) = some m := by
  have hslots : (ofValue m.toJson).slots? memberNames = some m.slots := by
    rw [toJson, slots?_ofValue]
    -- The weight is the one member that may be left out.
    cases hweight : m.weight <;>
      simp [members, memberNames, slots, Json.member?, ofMembers, Parts.slot?, ofValue, hweight]
  rw [ofDraft?, hslots]
  exact ofSlots?_slots m.aggregation.ofName?_name

/-- No member of a measure is nested. -/
theorem readable_members (m : Measure) : ∀ x ∈ m.members, x.2.Readable 0 := by
  rw [members, List.forall_mem_append]
  simp only [List.forall_mem_cons, List.not_mem_nil, false_implies, implies_true, and_true]
  exact ⟨⟨.text _, .text _⟩, Json.Readable.member?_map .text⟩

theorem readable_toJson (m : Measure) : m.toJson.Readable 1 :=
  .object m.readable_members

end Measure

/-! ## §3 Named measures -/

namespace NamedMeasure

theorem ofDraft?_toJson (m : NamedMeasure) : ofDraft? (ofValue m.toJson) = some m := by
  have hslots : (ofValue m.toJson).mergedSlots? ["name"] Measure.memberNames =
      some (some (.text m.name) :: m.measure.slots) := by
    rw [toJson, mergedSlots?_ofValue]
    cases hweight : m.measure.weight <;>
      simp [Measure.members, Measure.memberNames, Measure.slots, Json.member?, ofMembers,
        Parts.slot?, ofValue, hweight]
  simp [ofDraft?, hslots, Slot.required, text?, m.measure.ofMergedSlots?_slots]

theorem readable_toJson (m : NamedMeasure) : m.toJson.Readable 1 :=
  .object (List.forall_mem_cons.mpr ⟨.text m.name, m.measure.readable_members⟩)

end NamedMeasure

end SnapshotAnalytics

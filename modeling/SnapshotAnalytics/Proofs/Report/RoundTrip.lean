import SnapshotAnalytics.Proofs.Calendar.Text
import SnapshotAnalytics.Proofs.Measure.RoundTrip
import SnapshotAnalytics.Report.Breakdown
import SnapshotAnalytics.Report.History
import SnapshotAnalytics.Report.Maturity
import SnapshotAnalytics.Report.StatCard

/-!
# Reading written specifications

The specification of a report is read back from its JSON, as long as its numbers fit 64 bits; those
that were read do. So specifications that were read are determined by their text.
-/

namespace SnapshotAnalytics

open Json.Draft

/-! ## §1 Slots of optional fields -/

theorem optional_date (value : Option Date) :
    optional date? (value.map fun d => .text d.text) = some value := by
  refine optional_map (fun d _ => ?_) (fun _ _ => Json.Draft.noConfusion)
  rw [date?, text?, Option.bind_some, Date.text, String.toList_ofList]
  exact d.readSpaced?_calendarChars

/-- A number that may be left out is read back if it fits 64 bits. -/
theorem optional_count {value : Option Nat} (h : ∀ n ∈ value, n < UInt64.size) :
    optional count? (value.map fun n => ofValue (.ofNat n)) = some value :=
  optional_map (fun n hn => count?_ofNat (h n hn)) (fun _ _ => Json.Draft.noConfusion)

/-- A number that was read fits 64 bits. -/
theorem lt_size_of_count? {d : Json.Draft} {n : Nat} (h : count? d = some n) : n < UInt64.size := by
  unfold count? at h
  split at h
  · cases h
    exact UInt64.toNat_lt _
  · cases h

theorem lt_size_of_withDefault {value n : Nat} {slot : Option Json.Draft}
    (hvalue : value < UInt64.size) (h : Slot.withDefault value count? slot = some n) :
    n < UInt64.size := by
  cases slot with
  | none =>
    cases h
    exact hvalue
  | some d => exact lt_size_of_count? h

theorem lt_size_of_optional {value : Option Nat} {slot : Option Json.Draft}
    (h : optional count? slot = some value) : ∀ n ∈ value, n < UInt64.size := by
  intro n hn
  cases hn
  cases slot with
  | none => cases h
  | some d =>
    -- A slot that holds null counts as left out.
    rw [Json.Draft.optional, Slot.withDefault] at h
    unfold orNull? at h
    split at h
    · cases h
    · obtain ⟨n', hread, hn'⟩ := Option.map_eq_some_iff.mp h
      cases hn'
      exact lt_size_of_count? hread

/-! ## §2 Breakdowns -/

namespace BreakdownSpec

/-- The slots of a written specification. -/
def slots (spec : BreakdownSpec) : List (Option Json.Draft) :=
  some (.text spec.table) :: some (ofValue (.array (spec.results.map Measure.toJson)))
    :: some (.text spec.rankBy.name) :: some (.text spec.direction.name)
    :: some (ofValue (.ofNat spec.limit)) :: spec.measure.slots

theorem ofSlots?_slots {spec : BreakdownSpec} (h : spec.limit < UInt64.size) :
    ofSlots? spec.slots = some spec := by
  have hresults : list? Measure.ofDraft? (ofValue (.array (spec.results.map Measure.toJson))) =
      some spec.results := list?_ofValue fun m _ => m.ofDraft?_toJson
  simp [slots, ofSlots?, Slot.required, Slot.withDefault, text?, alternative?, count?_ofNat h,
    hresults, Measure.ofMergedSlots?_slots, RankBy.ofName?_name, OrderDirection.ofName?_name]

theorem ofDraft?_toJson {spec : BreakdownSpec} (h : spec.limit < UInt64.size) :
    ofDraft? (ofValue spec.toJson) = some spec := by
  have hslots : (ofValue spec.toJson).mergedSlots? ownNames Measure.memberNames =
      some spec.slots := by
    rw [toJson, mergedSlots?_ofValue]
    cases hweight : spec.measure.weight <;>
      simp [members, ownNames, slots, Measure.members, Measure.memberNames, Measure.slots,
        Json.member?, ofMembers, Parts.slot?, ofValue, hweight]
  rw [ofDraft?, hslots]
  exact ofSlots?_slots h

/-- The containers of a specification are nested to three levels: the members of the slots of a list. -/
theorem readable_toJson (spec : BreakdownSpec) : spec.toJson.Readable 3 := by
  have hmeasure : ∀ x ∈ spec.measure.members, x.2.Readable 2 :=
    fun x hx => (spec.measure.readable_members x hx).mono (by decide)
  have hresults : (Json.array (spec.results.map Measure.toJson)).Readable 2 := by
    refine .array fun j hj => ?_
    obtain ⟨m, _, rfl⟩ := List.mem_map.mp hj
    exact m.readable_toJson
  refine .object ?_
  simp only [members, List.cons_append, List.forall_mem_cons, List.forall_mem_append,
    List.not_mem_nil, false_implies, implies_true, and_true]
  exact ⟨.text _, hmeasure, hresults, .text _, .text _, .ofNat _⟩

/-- The number of groups that was read fits 64 bits. -/
theorem limit_lt_size {d : Json.Draft} {spec : BreakdownSpec} (h : ofDraft? d = some spec) :
    spec.limit < UInt64.size := by
  obtain ⟨slots, _, h⟩ := Option.bind_eq_some_iff.mp h
  unfold ofSlots? at h
  split at h
  · simp only [Option.bind_eq_bind, Option.bind_eq_some_iff, Option.pure_def,
      Option.some.injEq] at h
    obtain ⟨_, _, _, _, _, _, _, _, _, _, limit, hlimit, rfl⟩ := h
    exact lt_size_of_withDefault (by decide) hlimit
  · cases h

/-- Specifications that were read are determined by their text. -/
theorem eq_of_render_eq {spec spec' : BreakdownSpec} (hspec : spec.limit < UInt64.size)
    (hspec' : spec'.limit < UInt64.size) (h : spec.toJson.render = spec'.toJson.render) :
    spec = spec' :=
  Json.eq_of_render_eq (by decide) spec.readable_toJson spec'.readable_toJson
    (ofDraft?_toJson hspec) (ofDraft?_toJson hspec') h

end BreakdownSpec

/-! ## §3 Stat cards -/

namespace StatCardSpec

theorem ofDraft?_toJson (spec : StatCardSpec) : ofDraft? (ofValue spec.toJson) = some spec := by
  have hmeasures : list? NamedMeasure.ofDraft?
      (ofValue (.array (spec.measures.map NamedMeasure.toJson))) = some spec.measures :=
    list?_ofValue fun m _ => m.ofDraft?_toJson
  have hslots : (ofValue spec.toJson).slots? memberNames =
      some [some (.text spec.table),
        some (ofValue (.array (spec.measures.map NamedMeasure.toJson)))] := by
    rw [toJson, slots?_ofValue]
    simp [members, memberNames, ofMembers, Parts.slot?, ofValue]
  simp [ofDraft?, hslots, ofSlots?, Slot.required, text?, hmeasures]

theorem readable_toJson (spec : StatCardSpec) : spec.toJson.Readable 3 := by
  have hmeasures : (Json.array (spec.measures.map NamedMeasure.toJson)).Readable 2 := by
    refine .array fun j hj => ?_
    obtain ⟨m, _, rfl⟩ := List.mem_map.mp hj
    exact m.readable_toJson
  refine .object ?_
  simp only [members, List.forall_mem_cons, List.not_mem_nil, false_implies, implies_true,
    and_true]
  exact ⟨.text _, hmeasures⟩

/-- Specifications are determined by their text. -/
theorem eq_of_render_eq {spec spec' : StatCardSpec}
    (h : spec.toJson.render = spec'.toJson.render) : spec = spec' :=
  Json.eq_of_render_eq (by decide) spec.readable_toJson spec'.readable_toJson
    spec.ofDraft?_toJson spec'.ofDraft?_toJson h

end StatCardSpec

/-! ## §4 Histories -/

namespace HistorySpec

/-- The slots of a written specification. -/
def slots (spec : HistorySpec) : List (Option Json.Draft) :=
  some (.text spec.table) :: spec.groupBy.map .text
    :: spec.start.map (fun d => .text d.text)
    :: spec.limit.map (fun n => ofValue (.ofNat n)) :: spec.measure.slots

theorem ofDraft?_toJson {spec : HistorySpec} (h : ∀ n ∈ spec.limit, n < UInt64.size) :
    ofDraft? (ofValue spec.toJson) = some spec := by
  have hslots : (ofValue spec.toJson).mergedSlots? ownNames Measure.memberNames =
      some spec.slots := by
    rw [toJson, mergedSlots?_ofValue]
    -- One case for each choice of the members that are left out.
    cases hweight : spec.measure.weight <;> cases hgroup : spec.groupBy <;>
      cases hstart : spec.start <;> cases hlimit : spec.limit <;>
      simp [members, ownNames, slots, Measure.members, Measure.memberNames, Measure.slots,
        Json.member?, Window.dateToJson, ofMembers, Parts.slot?, ofValue, hweight, hgroup, hstart,
        hlimit]
  rw [ofDraft?, hslots]
  simp [slots, ofSlots?, Slot.required, text?, optional_text, optional_date, optional_count h,
    Measure.ofMergedSlots?_slots]

theorem readable_toJson (spec : HistorySpec) : spec.toJson.Readable 1 := by
  refine .object ?_
  simp only [members, List.cons_append, List.forall_mem_cons, List.forall_mem_append]
  exact ⟨.text _, ⟨⟨spec.measure.readable_members, Json.Readable.member?_map .text⟩,
    Json.Readable.member?_map fun d => .text d.text⟩, Json.Readable.member?_map .ofNat⟩

/-- The number of groups that was read fits 64 bits. -/
theorem limit_lt_size {d : Json.Draft} {spec : HistorySpec} (h : ofDraft? d = some spec) :
    ∀ n ∈ spec.limit, n < UInt64.size := by
  obtain ⟨slots, _, h⟩ := Option.bind_eq_some_iff.mp h
  unfold ofSlots? at h
  split at h
  · simp only [Option.bind_eq_bind, Option.bind_eq_some_iff, Option.pure_def,
      Option.some.injEq] at h
    obtain ⟨_, _, _, _, _, _, _, _, limit, hlimit, rfl⟩ := h
    exact lt_size_of_optional hlimit
  · cases h

/-- Specifications that were read are determined by their text. -/
theorem eq_of_render_eq {spec spec' : HistorySpec} (hspec : ∀ n ∈ spec.limit, n < UInt64.size)
    (hspec' : ∀ n ∈ spec'.limit, n < UInt64.size)
    (h : spec.toJson.render = spec'.toJson.render) : spec = spec' :=
  Json.eq_of_render_eq (by decide) spec.readable_toJson spec'.readable_toJson
    (ofDraft?_toJson hspec) (ofDraft?_toJson hspec') h

end HistorySpec

/-! ## §5 Maturity profiles -/

namespace MaturitySpec

/-- The slots of a written specification. -/
def slots (spec : MaturitySpec) : List (Option Json.Draft) :=
  some (.text spec.table) :: spec.maturityField.map .text :: spec.groupBy.map .text
    :: spec.measure.slots

theorem ofDraft?_toJson (spec : MaturitySpec) : ofDraft? (ofValue spec.toJson) = some spec := by
  have hslots : (ofValue spec.toJson).mergedSlots? ownNames Measure.memberNames =
      some spec.slots := by
    rw [toJson, mergedSlots?_ofValue]
    -- One case for each choice of the members that are left out.
    cases hweight : spec.measure.weight <;> cases hfield : spec.maturityField <;>
      cases hgroup : spec.groupBy <;>
      simp [members, ownNames, slots, Measure.members, Measure.memberNames, Measure.slots,
        Json.member?, ofMembers, Parts.slot?, ofValue, hweight, hfield, hgroup]
  rw [ofDraft?, hslots]
  simp [slots, ofSlots?, Slot.required, text?, optional_text, Measure.ofMergedSlots?_slots]

theorem readable_toJson (spec : MaturitySpec) : spec.toJson.Readable 1 := by
  refine .object ?_
  simp only [members, List.cons_append, List.forall_mem_cons, List.forall_mem_append]
  exact ⟨.text _, ⟨spec.measure.readable_members, Json.Readable.member?_map .text⟩,
    Json.Readable.member?_map .text⟩

/-- Specifications are determined by their text. -/
theorem eq_of_render_eq {spec spec' : MaturitySpec}
    (h : spec.toJson.render = spec'.toJson.render) : spec = spec' :=
  Json.eq_of_render_eq (by decide) spec.readable_toJson spec'.readable_toJson
    spec.ofDraft?_toJson spec'.ofDraft?_toJson h

end MaturitySpec

end SnapshotAnalytics

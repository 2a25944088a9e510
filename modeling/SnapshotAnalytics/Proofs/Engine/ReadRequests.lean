import SnapshotAnalytics.Engine.Request
import SnapshotAnalytics.Proofs.Filter.RoundTrip
import SnapshotAnalytics.Proofs.Report.RoundTrip

/-!
# Requests that were read

What reading a request guarantees about its parts: its numbers fit 64 bits, and the operators of its
filters are those of their spellings. Requests built in other ways need not have these properties.
-/

namespace SnapshotAnalytics

/-! ## §1 Filters of a request -/

/-- The filters of a request that were read, or left out. -/
theorem Filter.areRead_of_withDefault {slot : Option Json.Draft} {filters : List Filter}
    (h : Slot.withDefault [] (Json.Draft.list? Filter.ofDraft?) slot = some filters) :
    ∀ f ∈ filters, f.operator.IsRead := by
  cases slot with
  | none =>
    cases h
    intro f hf
    cases hf
  | some d => exact Filter.operators_areRead h

/-! ## §2 Requests by kind -/

theorem BreakdownRequest.read {d : Json.Draft} {r : BreakdownRequest} (h : ofDraft? d = some r) :
    r.spec.limit < UInt64.size ∧ ∀ f ∈ r.filters, f.operator.IsRead := by
  -- Reading is a chain of optional steps; each of them has to have succeeded.
  simp only [ofDraft?, Option.bind_eq_bind, Option.bind_eq_some_iff] at h
  obtain ⟨slots, _, h⟩ := h
  split at h
  · simp only [Option.bind_eq_some_iff, Option.pure_def, Option.some.injEq] at h
    obtain ⟨spec, hspec, _, _, filters, hfilters, _, _, rfl⟩ := h
    exact ⟨BreakdownSpec.limit_lt_size hspec, Filter.areRead_of_withDefault hfilters⟩
  · cases h

theorem StatCardRequest.read {d : Json.Draft} {r : StatCardRequest} (h : ofDraft? d = some r) :
    ∀ f ∈ r.filters, f.operator.IsRead := by
  simp only [ofDraft?, Option.bind_eq_bind, Option.bind_eq_some_iff] at h
  obtain ⟨slots, _, h⟩ := h
  split at h
  · simp only [Option.bind_eq_some_iff, Option.pure_def, Option.some.injEq] at h
    obtain ⟨_, _, filters, hfilters, _, _, rfl⟩ := h
    exact Filter.areRead_of_withDefault hfilters
  · cases h

theorem HistoryRequest.read {d : Json.Draft} {r : HistoryRequest} (h : ofDraft? d = some r) :
    (∀ n ∈ r.spec.limit, n < UInt64.size) ∧ ∀ f ∈ r.filters, f.operator.IsRead := by
  simp only [ofDraft?, Option.bind_eq_bind, Option.bind_eq_some_iff] at h
  obtain ⟨slots, _, h⟩ := h
  split at h
  · simp only [Option.bind_eq_some_iff, Option.pure_def, Option.some.injEq] at h
    obtain ⟨spec, hspec, filters, hfilters, _, _, rfl⟩ := h
    exact ⟨HistorySpec.limit_lt_size hspec, Filter.areRead_of_withDefault hfilters⟩
  · cases h

theorem MaturityRequest.read {d : Json.Draft} {r : MaturityRequest} (h : ofDraft? d = some r) :
    ∀ f ∈ r.filters, f.operator.IsRead := by
  simp only [ofDraft?, Option.bind_eq_bind, Option.bind_eq_some_iff] at h
  obtain ⟨slots, _, h⟩ := h
  split at h
  · simp only [Option.bind_eq_some_iff, Option.pure_def, Option.some.injEq] at h
    obtain ⟨_, _, filters, hfilters, _, _, rfl⟩ := h
    exact Filter.areRead_of_withDefault hfilters
  · cases h

theorem RowsRequest.read {d : Json.Draft} {r : RowsRequest} (h : ofDraft? d = some r) :
    r.limit < UInt64.size ∧ r.offset < UInt64.size ∧ ∀ f ∈ r.filters, f.operator.IsRead := by
  simp only [ofDraft?, Option.bind_eq_bind, Option.bind_eq_some_iff] at h
  obtain ⟨slots, _, h⟩ := h
  split at h
  · simp only [Option.bind_eq_some_iff, Option.pure_def, Option.some.injEq] at h
    obtain ⟨_, _, _, _, filters, hfilters, _, _, _, _, limit, hlimit, offset, hoffset, _, _, rfl⟩ := h
    exact ⟨lt_size_of_withDefault (by decide) hlimit, lt_size_of_withDefault (by decide) hoffset,
      Filter.areRead_of_withDefault hfilters⟩
  · cases h

theorem DistinctRequest.read {d : Json.Draft} {r : DistinctRequest} (h : ofDraft? d = some r) :
    r.limit < UInt64.size ∧ ∀ f ∈ r.filters, f.operator.IsRead := by
  simp only [ofDraft?, Option.bind_eq_bind, Option.bind_eq_some_iff] at h
  obtain ⟨slots, _, h⟩ := h
  split at h
  · simp only [Option.bind_eq_some_iff, Option.pure_def, Option.some.injEq] at h
    obtain ⟨_, _, _, _, filters, hfilters, limit, hlimit, _, _, rfl⟩ := h
    exact ⟨lt_size_of_withDefault (by decide) hlimit, Filter.areRead_of_withDefault hfilters⟩
  · cases h

/-! ## §3 Requests -/

namespace Request

/-- What holds of the parts of a request that stand in keys, if the request was read. -/
def IsRead : Request → Prop
  | breakdown r => r.spec.limit < UInt64.size ∧ ∀ f ∈ r.filters, f.operator.IsRead
  | statCard r => ∀ f ∈ r.filters, f.operator.IsRead
  | history r => (∀ n ∈ r.spec.limit, n < UInt64.size) ∧ ∀ f ∈ r.filters, f.operator.IsRead
  | maturity r => ∀ f ∈ r.filters, f.operator.IsRead
  | rows _ | distinct _ => True

theorem isRead_of_ofKind? {kind : String} {d : Json.Draft} {r : Request}
    (h : ofKind? kind d = some r) : r.IsRead := by
  unfold ofKind? at h
  -- One case for each kind, in the order in which kinds are read; any other kind is refused.
  split at h
  · obtain ⟨_, hread, rfl⟩ := Option.map_eq_some_iff.mp h
    exact BreakdownRequest.read hread
  · obtain ⟨_, hread, rfl⟩ := Option.map_eq_some_iff.mp h
    exact StatCardRequest.read hread
  · obtain ⟨_, hread, rfl⟩ := Option.map_eq_some_iff.mp h
    exact HistoryRequest.read hread
  · obtain ⟨_, hread, rfl⟩ := Option.map_eq_some_iff.mp h
    exact MaturityRequest.read hread
  · obtain ⟨_, _, rfl⟩ := Option.map_eq_some_iff.mp h
    trivial
  · obtain ⟨_, _, rfl⟩ := Option.map_eq_some_iff.mp h
    trivial
  · cases h

/-- A request that is read from a text is read by its kind. -/
theorem exists_ofKind?_of_read? {s : String} {r : Request} (h : read? s = some r) :
    ∃ kind d, ofKind? kind d = some r := by
  obtain ⟨d, _, h⟩ := Option.bind_eq_some_iff.mp h
  simp only [ofDraft?, Option.bind_eq_bind, Option.bind_eq_some_iff] at h
  obtain ⟨_, _, h⟩ := h
  -- The kind stands among the members of an object or first in an array.
  split at h
  · simp only [Option.bind_eq_some_iff] at h
    obtain ⟨_, _, _, _, _, _, hkind⟩ := h
    exact ⟨_, _, hkind⟩
  · simp only [Option.bind_eq_some_iff] at h
    obtain ⟨_, _, hkind⟩ := h
    exact ⟨_, _, hkind⟩
  · cases h

/-- Every request that is read from a text has these properties. -/
theorem isRead_of_read? {s : String} {r : Request} (h : read? s = some r) : r.IsRead := by
  obtain ⟨_, _, hkind⟩ := exists_ofKind?_of_read? h
  exact isRead_of_ofKind? hkind

end Request

end SnapshotAnalytics

import SnapshotAnalytics.Proofs.Engine.ReadRequests
import SnapshotAnalytics.Proofs.Engine.SemanticKeys
import SnapshotAnalytics.Proofs.Report.Requests

/-!
# Requests and their texts

A request is written under one name for each of its parts, whatever spellings it was read from. What
was read is read back from what is written, so the written text is a normal form: it gives the same
request, the same text and the same digests again.
-/

namespace SnapshotAnalytics.Request

open Json.Draft

/-! ## §1 What has to hold of the parts -/

def filters : Request → List Filter
  | breakdown r => r.filters
  | statCard r => r.filters
  | history r => r.filters
  | maturity r => r.filters
  | rows r => r.filters
  | distinct r => r.filters

/-- The numbers of a request: of groups, of rows or values, and of rows passed over. -/
def numbers : Request → List Nat
  | breakdown r => [r.spec.limit]
  | statCard _ => []
  | history r => r.spec.limit.toList
  | maturity _ => []
  | rows r => [r.limit, r.offset]
  | distinct r => [r.limit]

/-- A request that can be read back: its numbers fit 64 bits, and the operators of its filters are
those of the spellings under which they are written. -/
structure ReadsBack (r : Request) : Prop where
  numbers : ∀ n ∈ r.numbers, n < UInt64.size
  operators : ∀ f ∈ r.filters, f.operator.IsRead

theorem readsBack_of_ofKind? {kind : String} {d : Json.Draft} {r : Request}
    (h : ofKind? kind d = some r) : r.ReadsBack := by
  unfold ofKind? at h
  -- One case for each kind, in the order in which kinds are read; any other kind is refused.
  split at h
  · obtain ⟨_, hread, rfl⟩ := Option.map_eq_some_iff.mp h
    obtain ⟨hlimit, hfilters⟩ := BreakdownRequest.read hread
    exact ⟨List.forall_mem_singleton.mpr hlimit, hfilters⟩
  · obtain ⟨_, hread, rfl⟩ := Option.map_eq_some_iff.mp h
    exact ⟨List.forall_mem_nil _, StatCardRequest.read hread⟩
  · obtain ⟨_, hread, rfl⟩ := Option.map_eq_some_iff.mp h
    obtain ⟨hlimit, hfilters⟩ := HistoryRequest.read hread
    exact ⟨fun n hn => hlimit n (Option.mem_toList.mp hn), hfilters⟩
  · obtain ⟨_, hread, rfl⟩ := Option.map_eq_some_iff.mp h
    exact ⟨List.forall_mem_nil _, MaturityRequest.read hread⟩
  · obtain ⟨_, hread, rfl⟩ := Option.map_eq_some_iff.mp h
    obtain ⟨hlimit, hoffset, hfilters⟩ := RowsRequest.read hread
    exact ⟨List.forall_mem_cons.mpr ⟨hlimit, List.forall_mem_singleton.mpr hoffset⟩, hfilters⟩
  · obtain ⟨_, hread, rfl⟩ := Option.map_eq_some_iff.mp h
    obtain ⟨hlimit, hfilters⟩ := DistinctRequest.read hread
    exact ⟨List.forall_mem_singleton.mpr hlimit, hfilters⟩
  · cases h

/-- Every request that is read from a text can be read back. -/
theorem readsBack_of_read? {s : String} {r : Request} (h : read? s = some r) : r.ReadsBack := by
  obtain ⟨_, _, hkind⟩ := exists_ofKind?_of_read? h
  exact readsBack_of_ofKind? hkind

/-! ## §2 Reading back -/

/-- No part of a request is written under the name of its kind. -/
theorem kind_not_mem (r : Request) : ∀ m ∈ r.members, m.1 ∉ ["kind"] := by
  -- The members of a request are those of its parts, which have names of their own.
  cases r with
  | breakdown r =>
    refine List.forall_mem_append.mpr ⟨List.forall_mem_append.mpr ⟨?_, by simp⟩, ?_⟩
    · exact r.spec.namedBy_members.not_mem (by decide)
    · exact r.window.namedBy_members.not_mem (by decide)
  | statCard r =>
    refine List.forall_mem_append.mpr ⟨?_, List.forall_mem_cons.mpr ⟨by simp, ?_⟩⟩
    · exact r.spec.namedBy_members.not_mem (by decide)
    · exact r.window.namedBy_members.not_mem (by decide)
  | history r =>
    exact List.forall_mem_append.mpr ⟨r.spec.namedBy_members.not_mem (by decide),
      (namedBy_filters_asOf r.filters r.asOf).not_mem (by decide)⟩
  | maturity r =>
    exact List.forall_mem_append.mpr ⟨r.spec.namedBy_members.not_mem (by decide),
      (namedBy_filters_asOf r.filters r.asOf).not_mem (by decide)⟩
  | rows r => simp [members, RowsRequest.members]
  | distinct r => simp [members, DistinctRequest.members]

theorem ofKind?_kind {r : Request} (h : r.ReadsBack) :
    ofKind? r.kind (ofValue (.object r.members)) = some r := by
  cases r with
  | breakdown r =>
    have hread := BreakdownRequest.ofDraft?_members (h.numbers _ (List.mem_singleton.mpr rfl))
      h.operators
    exact Option.map_eq_some_iff.mpr ⟨r, hread, rfl⟩
  | statCard r =>
    exact Option.map_eq_some_iff.mpr ⟨r, StatCardRequest.ofDraft?_members h.operators, rfl⟩
  | history r =>
    have hread := HistoryRequest.ofDraft?_members
      (fun n hn => h.numbers n (Option.mem_toList.mpr hn)) h.operators
    exact Option.map_eq_some_iff.mpr ⟨r, hread, rfl⟩
  | maturity r =>
    exact Option.map_eq_some_iff.mpr ⟨r, MaturityRequest.ofDraft?_members h.operators, rfl⟩
  | rows r =>
    obtain ⟨hlimit, hoffset⟩ := List.forall_mem_cons.mp h.numbers
    have hread := RowsRequest.ofDraft?_members hlimit (hoffset _ (List.mem_singleton.mpr rfl))
      h.operators
    exact Option.map_eq_some_iff.mpr ⟨r, hread, rfl⟩
  | distinct r =>
    have hread := DistinctRequest.ofDraft?_members (h.numbers _ (List.mem_singleton.mpr rfl))
      h.operators
    exact Option.map_eq_some_iff.mpr ⟨r, hread, rfl⟩

/-- A request is read back from its JSON, whose first member is the kind. -/
theorem ofDraft?_toJson {r : Request} (h : r.ReadsBack) : ofDraft? (ofValue r.toJson) = some r := by
  have hdraft : ofValue r.toJson = .object (("kind", .text r.kind) :: ofMembers r.members) := rfl
  obtain ⟨v, hv⟩ := exists_value?_ofValue r.toJson
  -- The kind is the only member of that name, and the others are left as they are.
  have hother : ∀ m ∈ r.members, m.1 ≠ "kind" :=
    fun m hm heq => r.kind_not_mem m hm (List.mem_singleton.mpr heq)
  have hslot : Parts.slot? (("kind", .text r.kind) :: ofMembers r.members) "kind" =
      some (some (.text r.kind)) := by
    rw [Parts.slot?, List.filter_cons_of_pos (by simp), filter_ofMembers_eq_nil hother]
  have hrest : (("kind", .text r.kind) :: ofMembers r.members).filter (·.1 != "kind") =
      ofMembers r.members := by
    rw [List.filter_cons_of_neg (by simp), List.filter_eq_self, ofMembers_eq_map]
    intro m hm
    obtain ⟨member, hmember, rfl⟩ := List.mem_map.mp hm
    exact bne_iff_ne.mpr (hother member hmember)
  have hkind : ofKind? r.kind (.object (ofMembers r.members)) = some r := ofKind?_kind h
  rw [hdraft] at hv ⊢
  simp [ofDraft?, hv, hslot, hrest, text?, hkind]

/-- The containers of a request are nested to four levels: the members of the filters of a list. -/
theorem readable_toJson (r : Request) : r.toJson.Readable 4 := by
  refine .object (List.forall_mem_cons.mpr ⟨.text _, ?_⟩)
  cases r with
  | breakdown r => exact r.readable_members
  | statCard r => exact r.readable_members
  | history r => exact r.readable_members
  | maturity r => exact r.readable_members
  | rows r => exact r.readable_members
  | distinct r => exact r.readable_members

theorem ReadsBack.read?_render {r : Request} (h : r.ReadsBack) :
    read? r.toJson.render = some r := by
  rw [read?, Json.ofText?_render r.readable_toJson (by decide)]
  exact ofDraft?_toJson h

/-- The requests that are read from texts are those that are read from their own. -/
theorem exists_read?_iff {r : Request} : (∃ s, read? s = some r) ↔ r.ReadsBack :=
  ⟨fun ⟨_, h⟩ => readsBack_of_read? h, fun h => ⟨_, h.read?_render⟩⟩

/-! ## §3 Normal forms -/

/-- **Requests survive being written**: a request that was read from a text is read back from its own
text. What is read back is the same request, so it has the same text and the same digests. -/
theorem read?_toJson_render {s : String} {r : Request} (h : read? s = some r) :
    ∃ r', read? r.toJson.render = some r' ∧ r' = r ∧ r'.toJson.render = r.toJson.render ∧
      r'.digested.map CacheKey.fingerprint = r.digested.map CacheKey.fingerprint :=
  ⟨r, (readsBack_of_read? h).read?_render, rfl, rfl, rfl⟩

/-- The lines of a request in other spellings: of a period and an operator, with an operator that is
not known, a signed year, numbers left out, and members in another order. -/
def spelledLines : List String :=
  ["\x7b\"period\": \" YoY\", \"compareDate\": \"-0044-03-15\",",
    "\"filters\": [\x7b\"operator\": \"One_Of\", \"field\": \"desk\"\x7d,",
    "\x7b\"field\": \"book\", \"operator\": \"Resembles\"\x7d],",
    "\"table\": \"positions\", \"field\": \"amount\",",
    "\"aggregation\": \x7b\"sum\": null\x7d, \"groupBy\": \"desk\",",
    "\"kind\": \"grouped\"\x7d"]

/-- The text of these lines. -/
def spelledText : String :=
  String.ofList (spelledLines.flatMap String.toList)

/-- The request that the text stands for. -/
def spelledRequest : Request :=
  .breakdown
    { spec := .ofMeasure "positions" (.sum "amount")
      groupBy := "desk"
      filters := [.oneOf "desk" [], ⟨"book", .unrecognized "Resembles", []⟩]
      window := ⟨none, some .previousYear, some ⟨-44, 3, 15, by decide⟩⟩ }

theorem read?_spelledText : read? spelledText = some spelledRequest := by
  rw [read?, Json.Draft.ofText?, spelledText, String.toList_ofList]
  decide +kernel

theorem read?_toJson_render_spelled :
    read? spelledText = some spelledRequest ∧
      ∃ r', read? spelledRequest.toJson.render = some r' ∧ r' = spelledRequest ∧
        r'.toJson.render = spelledRequest.toJson.render ∧
        r'.digested.map CacheKey.fingerprint = spelledRequest.digested.map CacheKey.fingerprint :=
  ⟨read?_spelledText, read?_toJson_render read?_spelledText⟩

end SnapshotAnalytics.Request

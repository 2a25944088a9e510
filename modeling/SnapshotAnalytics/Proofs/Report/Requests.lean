import SnapshotAnalytics.Proofs.Filter.RoundTrip
import SnapshotAnalytics.Proofs.Report.RoundTrip
import SnapshotAnalytics.Report.Listing

/-!
# Reading written requests for reports

A request for a report stands in one record with its specification, its filters and its window. Each
of these parts takes its own members from the record and passes over those of the others, so each is
read back as if it had been written by itself.
-/

namespace SnapshotAnalytics

open Json.Draft

/-! ## §1 Names of members -/

namespace Json

/-- All members have one of the given names. -/
def NamedBy (names : List String) (members : List (String × Json)) : Prop :=
  ∀ m ∈ members, m.1 ∈ names

namespace NamedBy

variable {names names' : List String} {members others : List (String × Json)}

theorem nil : NamedBy names [] :=
  fun _ hm => nomatch hm

theorem cons {name : String} {j : Json} (hname : name ∈ names) (h : NamedBy names members) :
    NamedBy names ((name, j) :: members) :=
  List.forall_mem_cons.mpr ⟨hname, h⟩

theorem append (h : NamedBy names members) (h' : NamedBy names others) :
    NamedBy names (members ++ others) :=
  List.forall_mem_append.mpr ⟨h, h'⟩

theorem member? {name : String} (hname : name ∈ names) (value : Option Json) :
    NamedBy names (Json.member? name value) := by
  cases value with
  | none => exact nil
  | some j => exact cons hname nil

theorem mono (h : NamedBy names members) (hnames : names ⊆ names') : NamedBy names' members :=
  fun m hm => hnames (h m hm)

/-- Members of other names. -/
theorem not_mem (h : NamedBy names members) (hnames : ∀ name ∈ names, name ∉ names') :
    ∀ m ∈ members, m.1 ∉ names' :=
  fun m hm => hnames m.1 (h m hm)

end NamedBy

end Json

theorem Measure.namedBy_members (m : Measure) : Json.NamedBy memberNames m.members :=
  .append (.cons (by decide) (.cons (by decide) .nil)) (.member? (by decide) _)

theorem BreakdownSpec.namedBy_members (spec : BreakdownSpec) :
    Json.NamedBy (ownNames ++ Measure.memberNames) spec.members :=
  .append
    (.cons (by decide) (spec.measure.namedBy_members.mono (List.subset_append_right _ _)))
    (.cons (by decide) (.cons (by decide) (.cons (by decide) (.cons (by decide) .nil))))

theorem StatCardSpec.namedBy_members (spec : StatCardSpec) :
    Json.NamedBy memberNames spec.members :=
  .cons (by decide) (.cons (by decide) .nil)

theorem HistorySpec.namedBy_members (spec : HistorySpec) :
    Json.NamedBy (ownNames ++ Measure.memberNames) spec.members :=
  .append
    (.append
      (.append
        (.cons (by decide) (spec.measure.namedBy_members.mono (List.subset_append_right _ _)))
        (.member? (by decide) _))
      (.member? (by decide) _))
    (.member? (by decide) _)

theorem MaturitySpec.namedBy_members (spec : MaturitySpec) :
    Json.NamedBy (ownNames ++ Measure.memberNames) spec.members :=
  .append
    (.append
      (.cons (by decide) (spec.measure.namedBy_members.mono (List.subset_append_right _ _)))
      (.member? (by decide) _))
    (.member? (by decide) _)

theorem Window.namedBy_members (w : Window) : Json.NamedBy memberNames w.members :=
  .append (.append (.member? (by decide) _) (.member? (by decide) _)) (.member? (by decide) _)

/-! ## §2 Windows -/

theorem ComparePeriod.read?_name (period : ComparePeriod) : read? period.name = some period := by
  cases period <;> decide

namespace Window

/-- The slots of a written window. -/
def slots (w : Window) : List (Option Json.Draft) :=
  [w.asOf.map fun d => .text d.text, w.period.map fun p => .text p.name,
    w.compareDate.map fun d => .text d.text]

theorem ofSlots?_slots (w : Window) : ofSlots? w.slots = some w := by
  have hperiod : optional (spelled? ComparePeriod.read?) (w.period.map fun p => .text p.name) =
      some w.period := by
    refine optional_map (fun p _ => ?_) (fun _ _ => Json.Draft.noConfusion)
    rw [spelled?, text?, Option.bind_some, p.read?_name]
  simp [slots, ofSlots?, optional_date, hperiod]

theorem mergedSlots?_members (w : Window) :
    (ofValue (.object w.members)).mergedSlots? [] memberNames = some w.slots := by
  rw [mergedSlots?_ofValue]
  -- One case for each choice of the members that are left out.
  cases hasOf : w.asOf <;> cases hperiod : w.period <;> cases hdate : w.compareDate <;>
    simp [members, memberNames, slots, Json.member?, dateToJson, ofMembers, Parts.slot?, ofValue,
      hasOf, hperiod, hdate]

theorem readable_members (w : Window) : ∀ m ∈ w.members, m.2.Readable 0 := by
  simp only [members, List.forall_mem_append]
  exact ⟨⟨Json.Readable.member?_map fun d => .text d.text,
    Json.Readable.member?_map fun p => .text p.name⟩, Json.Readable.member?_map fun d => .text d.text⟩

/-- A window is read back from the end of a record whose other members have other names. -/
theorem read_behind {front : List (String × Json)} (hfront : ∀ m ∈ front, m.1 ∉ memberNames)
    (w : Window) :
    ((ofValue (.object (front ++ w.members))).mergedSlots? [] memberNames).bind ofSlots? =
      some w := by
  rw [mergedSlots?_behind hfront, mergedSlots?_members]
  exact w.ofSlots?_slots

end Window

/-! ## §3 Requests with a specification -/

namespace BreakdownRequest

theorem ofDraft?_members {r : BreakdownRequest} (hlimit : r.spec.limit < UInt64.size)
    (hfilters : ∀ f ∈ r.filters, f.operator.IsRead) :
    ofDraft? (ofValue (.object r.members)) = some r := by
  have hnamed : Json.NamedBy ["groupBy", "filters"]
      [("groupBy", .text r.groupBy), ("filters", Filter.listToJson r.filters)] :=
    .cons (by decide) (.cons (by decide) .nil)
  -- The members of the specification, the own ones and those of the window stand in one object.
  -- Each reader finds its own, as no name belongs to two of them.
  have hown : (ofValue (.object r.members)).mergedSlots? ["groupBy", "filters"] [] =
      some [some (.text r.groupBy), some (ofValue (Filter.listToJson r.filters))] := by
    rw [members, List.append_assoc, mergedSlots?_surrounded]
    · rfl
    · exact r.spec.namedBy_members.not_mem (by decide)
    · exact r.window.namedBy_members.not_mem (by decide)
  have hspec : BreakdownSpec.ofDraft? (ofValue (.object r.members)) = some r.spec := by
    rw [BreakdownSpec.ofDraft?, members, List.append_assoc, mergedSlots?_before]
    · exact BreakdownSpec.ofDraft?_toJson hlimit
    · exact List.forall_mem_append.mpr
        ⟨hnamed.not_mem (by decide), r.window.namedBy_members.not_mem (by decide)⟩
  have hwindow : ((ofValue (.object r.members)).mergedSlots? [] Window.memberNames).bind
      Window.ofSlots? = some r.window := by
    apply r.window.read_behind
    exact List.forall_mem_append.mpr
      ⟨r.spec.namedBy_members.not_mem (by decide), hnamed.not_mem (by decide)⟩
  simp [ofDraft?, hown, hspec, hwindow, Slot.required, Slot.withDefault, text?,
    Filter.list?_listToJson hfilters]

theorem readable_members (r : BreakdownRequest) : ∀ m ∈ r.members, m.2.Readable 3 := by
  have hspec : ∀ m ∈ r.spec.members, m.2.Readable 3 :=
    fun m hm => (r.spec.readable_toJson.of_mem m hm).mono (by decide)
  have hwindow : ∀ m ∈ r.window.members, m.2.Readable 3 :=
    fun m hm => (r.window.readable_members m hm).mono (by decide)
  simp only [members, List.forall_mem_append, List.forall_mem_cons]
  exact ⟨⟨hspec, .text _, Filter.readable_listToJson _, fun _ hm => nomatch hm⟩, hwindow⟩

end BreakdownRequest

namespace StatCardRequest

theorem ofDraft?_members {r : StatCardRequest} (hfilters : ∀ f ∈ r.filters, f.operator.IsRead) :
    ofDraft? (ofValue (.object r.members)) = some r := by
  have hnamed : Json.NamedBy ["filters"] [("filters", Filter.listToJson r.filters)] :=
    .cons (by decide) .nil
  have hmembers : r.members =
      r.spec.members ++ ([("filters", Filter.listToJson r.filters)] ++ r.window.members) := rfl
  have hown : (ofValue (.object r.members)).mergedSlots? ["filters"] [] =
      some [some (ofValue (Filter.listToJson r.filters))] := by
    rw [hmembers, mergedSlots?_surrounded]
    · rfl
    · exact r.spec.namedBy_members.not_mem (by decide)
    · exact r.window.namedBy_members.not_mem (by decide)
  have hspec : ((ofValue (.object r.members)).mergedSlots? [] StatCardSpec.memberNames).bind
      StatCardSpec.ofSlots? = some r.spec := by
    rw [hmembers, mergedSlots?_before]
    · rw [mergedSlots?_ofValue, List.nil_append, ← slots?_ofValue]
      exact r.spec.ofDraft?_toJson
    · exact List.forall_mem_append.mpr
        ⟨hnamed.not_mem (by decide), r.window.namedBy_members.not_mem (by decide)⟩
  have hwindow : ((ofValue (.object r.members)).mergedSlots? [] Window.memberNames).bind
      Window.ofSlots? = some r.window := by
    rw [hmembers, ← List.append_assoc]
    apply r.window.read_behind
    exact List.forall_mem_append.mpr
      ⟨r.spec.namedBy_members.not_mem (by decide), hnamed.not_mem (by decide)⟩
  simp [ofDraft?, hown, hspec, hwindow, Slot.withDefault, Filter.list?_listToJson hfilters]

theorem readable_members (r : StatCardRequest) : ∀ m ∈ r.members, m.2.Readable 3 := by
  have hspec : ∀ m ∈ r.spec.members, m.2.Readable 3 :=
    fun m hm => (r.spec.readable_toJson.of_mem m hm).mono (by decide)
  have hwindow : ∀ m ∈ r.window.members, m.2.Readable 3 :=
    fun m hm => (r.window.readable_members m hm).mono (by decide)
  simp only [members, List.forall_mem_append, List.forall_mem_cons]
  exact ⟨hspec, Filter.readable_listToJson _, hwindow⟩

end StatCardRequest

/-- What a history and a maturity profile have in common: filters, and possibly a day. -/
theorem mergedSlots?_filters_asOf (filters : List Filter) (asOf : Option Date) :
    (ofValue (.object (("filters", Filter.listToJson filters) ::
        Json.member? "asOfDate" (asOf.map Window.dateToJson)))).mergedSlots?
          ["filters", "asOfDate"] [] =
      some [some (ofValue (Filter.listToJson filters)), asOf.map fun d => .text d.text] := by
  rw [mergedSlots?_ofValue]
  cases asOf <;> rfl

theorem namedBy_filters_asOf (filters : List Filter) (asOf : Option Date) :
    Json.NamedBy ["filters", "asOfDate"] (("filters", Filter.listToJson filters) ::
      Json.member? "asOfDate" (asOf.map Window.dateToJson)) :=
  .cons (by decide) (.member? (by decide) _)

theorem readable_filters_asOf (filters : List Filter) (asOf : Option Date) :
    ∀ m ∈ ("filters", Filter.listToJson filters) ::
      Json.member? "asOfDate" (asOf.map Window.dateToJson), m.2.Readable 3 :=
  List.forall_mem_cons.mpr
    ⟨Filter.readable_listToJson filters, Json.Readable.member?_map fun d => .text d.text⟩

namespace HistoryRequest

theorem ofDraft?_members {r : HistoryRequest} (hlimit : ∀ n ∈ r.spec.limit, n < UInt64.size)
    (hfilters : ∀ f ∈ r.filters, f.operator.IsRead) :
    ofDraft? (ofValue (.object r.members)) = some r := by
  have hown : (ofValue (.object r.members)).mergedSlots? ["filters", "asOfDate"] [] =
      some [some (ofValue (Filter.listToJson r.filters)), r.asOf.map fun d => .text d.text] := by
    rw [members, mergedSlots?_behind (r.spec.namedBy_members.not_mem (by decide))]
    exact mergedSlots?_filters_asOf r.filters r.asOf
  have hspec : HistorySpec.ofDraft? (ofValue (.object r.members)) = some r.spec := by
    rw [HistorySpec.ofDraft?, members, mergedSlots?_before]
    · exact HistorySpec.ofDraft?_toJson hlimit
    · exact (namedBy_filters_asOf r.filters r.asOf).not_mem (by decide)
  simp [ofDraft?, hown, hspec, Slot.withDefault, optional_date, Filter.list?_listToJson hfilters]

theorem readable_members (r : HistoryRequest) : ∀ m ∈ r.members, m.2.Readable 3 :=
  List.forall_mem_append.mpr
    ⟨fun m hm => (r.spec.readable_toJson.of_mem m hm).mono (by decide),
      readable_filters_asOf r.filters r.asOf⟩

end HistoryRequest

namespace MaturityRequest

theorem ofDraft?_members {r : MaturityRequest} (hfilters : ∀ f ∈ r.filters, f.operator.IsRead) :
    ofDraft? (ofValue (.object r.members)) = some r := by
  have hown : (ofValue (.object r.members)).mergedSlots? ["filters", "asOfDate"] [] =
      some [some (ofValue (Filter.listToJson r.filters)), r.asOf.map fun d => .text d.text] := by
    rw [members, mergedSlots?_behind (r.spec.namedBy_members.not_mem (by decide))]
    exact mergedSlots?_filters_asOf r.filters r.asOf
  have hspec : MaturitySpec.ofDraft? (ofValue (.object r.members)) = some r.spec := by
    rw [MaturitySpec.ofDraft?, members, mergedSlots?_before]
    · exact r.spec.ofDraft?_toJson
    · exact (namedBy_filters_asOf r.filters r.asOf).not_mem (by decide)
  simp [ofDraft?, hown, hspec, Slot.withDefault, optional_date, Filter.list?_listToJson hfilters]

theorem readable_members (r : MaturityRequest) : ∀ m ∈ r.members, m.2.Readable 3 :=
  List.forall_mem_append.mpr
    ⟨fun m hm => (r.spec.readable_toJson.of_mem m hm).mono (by decide),
      readable_filters_asOf r.filters r.asOf⟩

end MaturityRequest

/-! ## §4 Listings -/

/-- A text that is written as null when there is none. -/
theorem optional_ofText? (value : Option String) :
    optional text? (some (ofValue (Json.ofText? value))) = some value := by
  cases value <;> rfl

/-- A date that is written as null when there is none. -/
theorem optional_ofText?_date (value : Option Date) :
    optional date? (some (ofValue (Json.ofText? (value.map Date.text)))) = some value := by
  cases value with
  | none => rfl
  | some d => exact optional_date (some d)

theorem Json.Readable.ofText? {levels : Nat} (value : Option String) :
    (Json.ofText? value).Readable levels := by
  cases value with
  | none => exact ⟨trivial, Nat.zero_le _⟩
  | some s => exact .text s

namespace RowsRequest

theorem ofDraft?_members {r : RowsRequest} (hlimit : r.limit < UInt64.size)
    (hoffset : r.offset < UInt64.size) (hfilters : ∀ f ∈ r.filters, f.operator.IsRead) :
    ofDraft? (ofValue (.object r.members)) = some r := by
  have hcolumns : texts? (ofValue (.ofTexts r.columns)) = some r.columns :=
    list?_ofValue fun _ _ => rfl
  have hslots : (ofValue (.object r.members)).slots? ["table", "columns", "filters", "orderBy",
        "descending", "limit", "offset", "asOfDate"] =
      some [some (.text r.table), some (ofValue (.ofTexts r.columns)),
        some (ofValue (Filter.listToJson r.filters)), some (ofValue (Json.ofText? r.orderBy)),
        some (.bool r.descending), some (ofValue (.ofNat r.limit)), some (ofValue (.ofNat r.offset)),
        some (ofValue (Json.ofText? (r.asOf.map Date.text)))] := rfl
  simp [ofDraft?, hslots, Slot.required, Slot.withDefault, text?, bool?, hcolumns,
    Filter.list?_listToJson hfilters, optional_ofText?, optional_ofText?_date, count?_ofNat hlimit,
    count?_ofNat hoffset]

theorem readable_members (r : RowsRequest) : ∀ m ∈ r.members, m.2.Readable 3 := by
  have hcolumns : (Json.ofTexts r.columns).Readable 3 := by
    refine .array fun j hj => ?_
    obtain ⟨s, _, rfl⟩ := List.mem_map.mp hj
    exact .text s
  simp only [members, List.forall_mem_cons, List.not_mem_nil, false_implies, implies_true, and_true]
  exact ⟨.text _, hcolumns, Filter.readable_listToJson _, .ofText? _, .bool _, .ofNat _, .ofNat _,
    .ofText? _⟩

end RowsRequest

namespace DistinctRequest

theorem ofDraft?_members {r : DistinctRequest} (hlimit : r.limit < UInt64.size)
    (hfilters : ∀ f ∈ r.filters, f.operator.IsRead) :
    ofDraft? (ofValue (.object r.members)) = some r := by
  have hslots : (ofValue (.object r.members)).slots? ["table", "field", "filters", "limit",
        "asOfDate"] =
      some [some (.text r.table), some (.text r.field),
        some (ofValue (Filter.listToJson r.filters)), some (ofValue (.ofNat r.limit)),
        some (ofValue (Json.ofText? (r.asOf.map Date.text)))] := rfl
  simp [ofDraft?, hslots, Slot.required, Slot.withDefault, text?, Filter.list?_listToJson hfilters,
    optional_ofText?_date, count?_ofNat hlimit]

theorem readable_members (r : DistinctRequest) : ∀ m ∈ r.members, m.2.Readable 3 := by
  simp only [members, List.forall_mem_cons, List.not_mem_nil, false_implies, implies_true, and_true]
  exact ⟨.text _, .text _, Filter.readable_listToJson _, .ofNat _, .ofText? _⟩

end DistinctRequest

end SnapshotAnalytics

import SnapshotAnalytics.Filter.Basic
import SnapshotAnalytics.Proofs.Data.Readings
import SnapshotAnalytics.Proofs.Json.Records
import SnapshotAnalytics.Proofs.Json.RoundTrip

/-!
# Reading written filters

An operator that came from a spelling is the operator of the spelling under which it is written. So
filters that were read are read back from their JSON.
-/

namespace SnapshotAnalytics

/-! ## §1 Operators -/

namespace Operator

/-- An operator that is read back from the spelling under which it is written. -/
def IsRead (o : Operator) : Prop :=
  read o.spelling = o

/-- The operators of the known spellings are read back. -/
theorem isRead_of_mem_spellings : ∀ entry ∈ spellings, entry.2.IsRead := by
  unfold IsRead
  decide +kernel

theorem mem_of_lookup {entries : List (String × Operator)} {key : String} {o : Operator}
    (h : entries.lookup key = some o) : (key, o) ∈ entries := by
  obtain ⟨before, after, rfl, _⟩ := List.lookup_eq_some_iff.mp h
  exact List.mem_append_right before (List.mem_cons_self ..)

/-- What is read from a spelling is read back. -/
theorem isRead_read (s : String) : (read s).IsRead := by
  -- A spelling that is not known is kept, and is not known when it is read again.
  cases hs : spellings.lookup (fold s) with
  | some o =>
    have hread : read s = o := by rw [read, hs, Option.getD_some]
    have hentry := isRead_of_mem_spellings _ (mem_of_lookup hs)
    rw [hread]
    exact hentry
  | none =>
    have hread : read s = unrecognized s := by rw [read, hs, Option.getD_none]
    rw [hread]
    exact hread

end Operator

/-! ## §2 Filters -/

namespace Filter

open Json.Draft

theorem operator_isRead {d : Json.Draft} {f : Filter} (h : ofDraft? d = some f) :
    f.operator.IsRead := by
  unfold ofDraft? at h
  cases hslots : d.slots? ["field", "operator", "values"] with
  | none =>
    rw [hslots] at h
    cases h
  | some slots =>
    simp only [hslots, Option.bind_eq_bind, Option.bind_some] at h
    split at h
    · simp only [Option.bind_eq_some_iff, Option.pure_def, Option.some.injEq] at h
      obtain ⟨field, _, operator, _, values, _, rfl⟩ := h
      dsimp only
      exact Operator.isRead_read operator
    · cases h

/-- A filter is read back from its JSON. -/
theorem ofDraft?_toJson {f : Filter} (h : f.operator.IsRead) :
    ofDraft? (ofValue f.toJson) = some f := by
  have hvalues : texts? (ofValue (.ofTexts f.values)) = some f.values :=
    list?_ofValue fun _ _ => rfl
  have hslots : (ofValue f.toJson).slots? ["field", "operator", "values"] =
      some [some (.text f.field), some (.text f.operator.spelling),
        some (ofValue (.ofTexts f.values))] := by
    rw [toJson, slots?_ofValue]
    simp [ofMembers, Parts.slot?, ofValue]
  have hread : Operator.read f.operator.spelling = f.operator := h
  simp [ofDraft?, hslots, Slot.required, Slot.withDefault, text?, hvalues, hread]

theorem readable_toJson (f : Filter) : f.toJson.Readable 2 := by
  refine .object ?_
  simp only [List.forall_mem_cons, List.not_mem_nil, false_implies, implies_true, and_true]
  refine ⟨.text _, .text _, .array ?_⟩
  intro j hj
  obtain ⟨s, _, rfl⟩ := List.mem_map.mp hj
  exact .text s

/-! ## §3 Lists of filters -/

theorem operators_areRead {d : Json.Draft} {filters : List Filter}
    (h : list? ofDraft? d = some filters) : ∀ f ∈ filters, f.operator.IsRead := by
  cases d with
  | array items =>
    rw [list?] at h
    intro f hf
    obtain ⟨item, _, hitem⟩ := Readings.exists_item_of_mapM h hf
    exact operator_isRead hitem
  | _ => cases h

theorem list?_listToJson {filters : List Filter} (h : ∀ f ∈ filters, f.operator.IsRead) :
    list? ofDraft? (ofValue (listToJson filters)) = some filters :=
  list?_ofValue fun f hf => ofDraft?_toJson (h f hf)

theorem readable_listToJson (filters : List Filter) : (listToJson filters).Readable 3 := by
  refine .array ?_
  intro j hj
  obtain ⟨f, _, rfl⟩ := List.mem_map.mp hj
  exact f.readable_toJson

/-- Filters that were read are determined by their text. -/
theorem eq_of_render_eq {filters filters' : List Filter}
    (hfilters : ∀ f ∈ filters, f.operator.IsRead) (hfilters' : ∀ f ∈ filters', f.operator.IsRead)
    (h : (listToJson filters).render = (listToJson filters').render) : filters = filters' :=
  Json.eq_of_render_eq (by decide) (readable_listToJson filters) (readable_listToJson filters')
    (list?_listToJson hfilters) (list?_listToJson hfilters') h

end Filter

end SnapshotAnalytics

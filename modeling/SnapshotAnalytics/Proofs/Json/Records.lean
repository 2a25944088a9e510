import SnapshotAnalytics.Json.Reading
import SnapshotAnalytics.Proofs.Data.Readings

/-!
# Records as drafts

The draft of a value has no part without a value, so a record that takes in the fields of others is
read from its members like any other record.
-/

namespace SnapshotAnalytics.Json.Draft

theorem ofItems_eq_map (items : List Json) : ofItems items = items.map ofValue := by
  induction items with
  | nil => rfl
  | cons j items ih => rw [ofItems, ih, List.map_cons]

theorem ofMembers_eq_map (members : List (String × Json)) :
    ofMembers members = members.map (Prod.map id ofValue) := by
  induction members with
  | nil => rfl
  | cons m members ih => rw [ofMembers, ih, List.map_cons, Prod.map, id]

mutual

/-- The draft of a value stands for a value. -/
theorem exists_value?_ofValue (j : Json) : ∃ v, value? (ofValue j) = some v := by
  match j with
  | .null => exact ⟨_, rfl⟩
  | .bool b => exact ⟨_, rfl⟩
  | .number n => exact ⟨_, rfl⟩
  | .text s => exact ⟨_, rfl⟩
  | .array items =>
    obtain ⟨vs, hvs⟩ := exists_valuesOfItems?_ofItems items
    rw [ofValue, value?, hvs]
    exact ⟨_, rfl⟩
  | .object members =>
    obtain ⟨vs, hvs⟩ := exists_valuesOfMembers?_ofMembers members
    rw [ofValue, value?, hvs]
    exact ⟨_, rfl⟩

/-- The drafts of items stand for values. -/
theorem exists_valuesOfItems?_ofItems (items : List Json) :
    ∃ vs, valuesOfItems? (ofItems items) = some vs := by
  match items with
  | [] => exact ⟨_, rfl⟩
  | j :: items =>
    obtain ⟨v, hv⟩ := exists_value?_ofValue j
    obtain ⟨vs, hvs⟩ := exists_valuesOfItems?_ofItems items
    rw [ofItems, valuesOfItems?, hv, hvs]
    exact ⟨_, rfl⟩

/-- The drafts of members stand for values. -/
theorem exists_valuesOfMembers?_ofMembers (members : List (String × Json)) :
    ∃ vs, valuesOfMembers? (ofMembers members) = some vs := by
  match members with
  | [] => exact ⟨_, rfl⟩
  | (key, j) :: members =>
    obtain ⟨v, hv⟩ := exists_value?_ofValue j
    obtain ⟨vs, hvs⟩ := exists_valuesOfMembers?_ofMembers members
    rw [ofMembers, valuesOfMembers?, hv, hvs]
    exact ⟨_, rfl⟩

end

/-- The slots of a written record. -/
theorem slots?_ofValue (names : List String) (members : List (String × Json)) :
    (ofValue (.object members)).slots? names = names.mapM (Parts.slot? (ofMembers members)) :=
  rfl

/-- The slots of a written record that takes in the fields of others: none of its parts is without a
value. -/
theorem mergedSlots?_ofValue (own taken : List String) (members : List (String × Json)) :
    (ofValue (.object members)).mergedSlots? own taken =
      (own ++ taken).mapM (Parts.slot? (ofMembers members)) := by
  -- What the outer record does not take itself is made up of values, so all of it is handed on.
  have hfilter : (ofMembers members).filter (fun m => !own.contains m.1) =
      ofMembers (members.filter fun m => !own.contains m.1) := by
    rw [ofMembers_eq_map, ofMembers_eq_map, List.filter_map]
    rfl
  obtain ⟨vs, hvs⟩ :=
    exists_valuesOfMembers?_ofMembers (members.filter fun m => !own.contains m.1)
  rw [ofValue, mergedSlots?, hfilter, hvs]
  rfl

/-- The slots of a record depend only on which members have its names. -/
theorem mapM_slot?_congr {names : List String} {members members' : List (String × Draft)}
    (h : ∀ name ∈ names, members.filter (·.1 == name) = members'.filter (·.1 == name)) :
    names.mapM (Parts.slot? members) = names.mapM (Parts.slot? members') := by
  induction names with
  | nil => rfl
  | cons name names ih =>
    obtain ⟨hname, hnames⟩ := List.forall_mem_cons.mp h
    rw [List.mapM_cons, List.mapM_cons, Parts.slot?, Parts.slot?, hname, ih hnames]

theorem filter_ofMembers_eq_nil {name : String} {members : List (String × Json)}
    (h : ∀ m ∈ members, m.1 ≠ name) : (ofMembers members).filter (·.1 == name) = [] := by
  rw [ofMembers_eq_map, List.filter_map, List.map_eq_nil_iff, List.filter_eq_nil_iff]
  exact fun m hm heq => h m hm (beq_iff_eq.mp heq)

/-- Members of other names in front and behind make no difference to what is read from a record. -/
theorem mergedSlots?_surrounded {own taken : List String} {front back : List (String × Json)}
    (hfront : ∀ m ∈ front, m.1 ∉ own ++ taken) (hback : ∀ m ∈ back, m.1 ∉ own ++ taken)
    (members : List (String × Json)) :
    (ofValue (.object (front ++ (members ++ back)))).mergedSlots? own taken =
      (ofValue (.object members)).mergedSlots? own taken := by
  rw [mergedSlots?_ofValue, mergedSlots?_ofValue]
  refine mapM_slot?_congr fun name hname => ?_
  have hnone {others : List (String × Json)} (hothers : ∀ m ∈ others, m.1 ∉ own ++ taken) :
      (ofMembers others).filter (·.1 == name) = [] :=
    filter_ofMembers_eq_nil fun m hm heq => hothers m hm (heq ▸ hname)
  have hparts : ofMembers (front ++ (members ++ back)) =
      ofMembers front ++ (ofMembers members ++ ofMembers back) := by
    simp only [ofMembers_eq_map, List.map_append]
  rw [hparts, List.filter_append, List.filter_append, hnone hfront, hnone hback, List.nil_append,
    List.append_nil]

theorem mergedSlots?_before {own taken : List String} {back : List (String × Json)}
    (hback : ∀ m ∈ back, m.1 ∉ own ++ taken) (members : List (String × Json)) :
    (ofValue (.object (members ++ back))).mergedSlots? own taken =
      (ofValue (.object members)).mergedSlots? own taken := by
  have hfront : ∀ m ∈ ([] : List (String × Json)), m.1 ∉ own ++ taken := fun _ hm => nomatch hm
  exact mergedSlots?_surrounded hfront hback members

theorem mergedSlots?_behind {own taken : List String} {front : List (String × Json)}
    (hfront : ∀ m ∈ front, m.1 ∉ own ++ taken) (members : List (String × Json)) :
    (ofValue (.object (front ++ members))).mergedSlots? own taken =
      (ofValue (.object members)).mergedSlots? own taken := by
  have hback : ∀ m ∈ ([] : List (String × Json)), m.1 ∉ own ++ taken := fun _ hm => nomatch hm
  have hslots := mergedSlots?_surrounded hfront hback members
  rwa [List.append_nil] at hslots

/-- A field that is left out when it has no value is read back; its values are not written as null. -/
theorem optional_map {α : Type} {read : Draft → Option α} {write : α → Draft} {value : Option α}
    (hread : ∀ x ∈ value, read (write x) = some x) (hnull : ∀ x ∈ value, write x ≠ null) :
    optional read (value.map write) = some value := by
  cases value with
  | none => rfl
  | some x =>
    -- What is written is not null, so it is read as a value.
    have hx : orNull? read (write x) = (read (write x)).map some := by
      have hne := hnull x rfl
      unfold orNull?
      split
      · contradiction
      · rfl
    rw [Option.map_some, Json.Draft.optional, Slot.withDefault, hx, hread x rfl]
    rfl

theorem optional_text (value : Option String) :
    optional text? (value.map text) = some value :=
  optional_map (fun _ _ => rfl) (fun _ _ => Draft.noConfusion)

theorem count?_ofNat {n : Nat} (hn : n < UInt64.size) : count? (ofValue (.ofNat n)) = some n := by
  rw [ofNat, ofValue, count?, UInt64.toNat_ofNat_of_lt' hn]

/-- A list is read back if each of its items is. -/
theorem list?_ofValue {α : Type} {read : Draft → Option α} {toJson : α → Json} {xs : List α}
    (h : ∀ x ∈ xs, read (ofValue (toJson x)) = some x) :
    list? read (ofValue (.array (xs.map toJson))) = some xs := by
  have hitems : xs.mapM (read ∘ ofValue ∘ toJson) = some (xs.map id) :=
    Readings.mapM_eq_some_map h
  rw [ofValue, list?, ofItems_eq_map, List.map_map, List.mapM_map, hitems, List.map_id]

end SnapshotAnalytics.Json.Draft

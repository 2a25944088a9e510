import SnapshotAnalytics.Proofs.Cache.ReadThrough
import SnapshotAnalytics.Proofs.Data.Keyed
import SnapshotAnalytics.Proofs.Json.Doubles
import SnapshotAnalytics.Proofs.Query.RoundTrip

/-!
# What a cache gives back

A result is stored as text and read again when it is found. Nothing is lost on the way, whatever its
rows and cells are, as long as the cells are not nested too deeply.
-/

namespace SnapshotAnalytics

/-! ## §1 Cells -/

namespace Json

mutual

/-- The members of every object are in ascending order of their keys. -/
def IsOrdered : Json → Prop
  | array items => AreOrdered items
  | object members => Keyed.Ascending members ∧ MembersAreOrdered members
  | _ => True

/-- So are those of the objects in some items. -/
def AreOrdered : List Json → Prop
  | [] => True
  | item :: items => IsOrdered item ∧ AreOrdered items

/-- So are those of the objects in some members. -/
def MembersAreOrdered : List (String × Json) → Prop
  | [] => True
  | (_, value) :: members => IsOrdered value ∧ MembersAreOrdered members

end

theorem membersAreOrdered_iff {members : List (String × Json)} :
    MembersAreOrdered members ↔ ∀ m ∈ members, m.2.IsOrdered := by
  induction members with
  | nil => simp [MembersAreOrdered]
  | cons m members ih => rw [MembersAreOrdered, ih, List.forall_mem_cons]

open Draft

mutual

/-- Every value that is read is ordered: of the members of an object a map is made. -/
theorem isOrdered_of_value? {d : Draft} {j : Json} (h : value? d = some j) : j.IsOrdered := by
  match d, h with
  | .null, h | .bool _, h | .number _, h | .text _, h =>
    cases h
    trivial
  | .array items, h =>
    obtain ⟨values, hvalues, rfl⟩ := Option.map_eq_some_iff.mp h
    exact areOrdered_of_valuesOfItems? hvalues
  | .object members, h =>
    obtain ⟨values, hvalues, rfl⟩ := Option.map_eq_some_iff.mp h
    have hordered := membersAreOrdered_iff.mp (membersAreOrdered_of_valuesOfMembers? hvalues)
    exact ⟨.ofList values,
      membersAreOrdered_iff.mpr fun m hm => hordered m (Keyed.mem_of_mem_ofList hm)⟩

/-- So are the values of items. -/
theorem areOrdered_of_valuesOfItems? {items : List Draft} {values : List Json}
    (h : valuesOfItems? items = some values) : AreOrdered values := by
  match items, h with
  | [], h =>
    cases h
    trivial
  | d :: items, h =>
    simp only [valuesOfItems?, Option.bind_eq_bind, Option.bind_eq_some_iff] at h
    obtain ⟨j, hj, js, hjs, h⟩ := h
    cases h
    exact ⟨isOrdered_of_value? hj, areOrdered_of_valuesOfItems? hjs⟩

/-- So are the values of members. -/
theorem membersAreOrdered_of_valuesOfMembers? {members : List (String × Draft)}
    {values : List (String × Json)} (h : valuesOfMembers? members = some values) :
    MembersAreOrdered values := by
  match members, h with
  | [], h =>
    cases h
    trivial
  | (key, d) :: members, h =>
    simp only [valuesOfMembers?, Option.bind_eq_bind, Option.bind_eq_some_iff] at h
    obtain ⟨j, hj, js, hjs, h⟩ := h
    cases h
    exact ⟨isOrdered_of_value? hj, membersAreOrdered_of_valuesOfMembers? hjs⟩

end

mutual

/-- The draft of a value whose objects are ordered stands for the value. -/
theorem IsOrdered.value?_ofValue {j : Json} (h : j.IsOrdered) : value? (ofValue j) = some j := by
  match j, h with
  | null, _ => rfl
  | bool b, _ => rfl
  | number n, _ => rfl
  | text s, _ => rfl
  | array items, h => rw [ofValue, value?, valuesOfItems?_ofItems h, Option.map_some]
  | object members, h =>
    obtain ⟨hascending, hmembers⟩ := h
    rw [ofValue, value?, valuesOfMembers?_ofMembers hmembers, Option.map_some,
      Keyed.ofList_eq_self hascending]

/-- The drafts of items stand for the items. -/
theorem valuesOfItems?_ofItems {items : List Json} (h : AreOrdered items) :
    valuesOfItems? (ofItems items) = some items := by
  match items, h with
  | [], _ => rfl
  | item :: items, ⟨hitem, hitems⟩ =>
    rw [ofItems, valuesOfItems?, hitem.value?_ofValue, valuesOfItems?_ofItems hitems]
    rfl

/-- The drafts of members stand for the members. -/
theorem valuesOfMembers?_ofMembers {members : List (String × Json)} (h : MembersAreOrdered members) :
    valuesOfMembers? (ofMembers members) = some members := by
  match members, h with
  | [], _ => rfl
  | (key, value) :: members, ⟨hvalue, hmembers⟩ =>
    rw [ofMembers, valuesOfMembers?, hvalue.value?_ofValue, valuesOfMembers?_ofMembers hmembers]
    rfl

end

mutual

theorem EveryNumber.imp {P Q : Number → Prop} (hPQ : ∀ n, P n → Q n) {j : Json}
    (h : EveryNumber P j) : EveryNumber Q j := by
  match j, h with
  | null, _ => trivial
  | bool b, _ => trivial
  | text s, _ => trivial
  | number n, h => exact hPQ n h
  | array items, h => exact everyNumberOfItems_imp hPQ h
  | object members, h => exact everyNumberOfMembers_imp hPQ h

theorem everyNumberOfItems_imp {P Q : Number → Prop} (hPQ : ∀ n, P n → Q n) {items : List Json}
    (h : EveryNumberOfItems P items) : EveryNumberOfItems Q items := by
  match items, h with
  | [], _ => trivial
  | item :: items, ⟨hitem, hitems⟩ =>
    exact ⟨EveryNumber.imp hPQ hitem, everyNumberOfItems_imp hPQ hitems⟩

theorem everyNumberOfMembers_imp {P Q : Number → Prop} (hPQ : ∀ n, P n → Q n)
    {members : List (String × Json)} (h : EveryNumberOfMembers P members) :
    EveryNumberOfMembers Q members := by
  match members, h with
  | [], _ => trivial
  | (key, value) :: members, ⟨hvalue, hmembers⟩ =>
    exact ⟨EveryNumber.imp hPQ hvalue, everyNumberOfMembers_imp hPQ hmembers⟩

end

/-- A cell that can be stored: nested to 124 levels at most, its objects ordered, and its doubles those
of their texts. -/
structure IsStorable (cell : Json) : Prop where
  depth : cell.depth ≤ 124
  ordered : cell.IsOrdered
  doubles : cell.EveryNumber Number.KeepsValue

theorem IsStorable.isCell {cell : Json} (h : cell.IsStorable) : cell.IsCell where
  readable := ⟨h.doubles.imp fun _ hn => hn.readsBack, h.depth⟩
  value := h.ordered.value?_ofValue

end Json

/-! ## §2 Results -/

/-- A result that can be stored: its cells can, and its two numbers fit 64 bits. -/
structure QueryResult.IsStorable (r : QueryResult) : Prop where
  cells : ∀ row ∈ r.rows, ∀ cell ∈ row, cell.IsStorable
  rowCount : r.rowCount < UInt64.size
  elapsedMs : r.elapsedMs < UInt64.size

namespace Cache

/-- **Stored results are found as they were**: the text that is stored of a result is read as that
result, and a look-up under its key gives it back as long as the entry is live. -/
theorem lookup_save {r : QueryResult} (hr : r.IsStorable) {t t' : Moment} {key : String} {ttl : Nat}
    (hwrite : t.writeFault = none) (hfits : t.fits ttl = true) (hread : t'.readFault = none)
    (hlive : t'.now < t.now + ttl) (s : CacheState) :
    QueryResult.decode? r.encode = some r ∧
      ((lookup t' key).run ((save t key ttl r).run s).2).1 = some r := by
  have hdecode : QueryResult.decode? r.encode = some r :=
    QueryResult.decode?_encode (fun row hrow cell hcell => (hr.cells row hrow cell hcell).isCell)
      hr.rowCount hr.elapsedMs
  -- The entry was just written, and it is live at the later time.
  have hshown : (s.store.set t.horizon t.now key r.encode ttl).shown t'.now key = some r.encode := by
    have hset : Store.fits t.horizon t.now ttl = true := hfits
    rw [Store.shown, Store.set, if_pos hset, Keyed.find?_insert, if_pos rfl, Option.filter_some]
    simp [Store.isLive, hlive]
  refine ⟨hdecode, ?_⟩
  simp only [lookup_run, hread, save_run, hwrite, Store.get_fst, hshown]
  exact hdecode

/-- A nested cell with a negative zero, a fraction and the greatest natural number. -/
def nestedCell : Json :=
  .object [("a\"\n", .array [.number (.double ⟨0x8000000000000000⟩ rfl), .null, .object []]),
    ("b", .array [.number (.double ⟨0x4004000000000000⟩ rfl), .ofNat 0xFFFFFFFFFFFFFFFF, .bool true])]

/-- A result whose rows are longer and shorter than its list of columns. -/
def mixedResult : QueryResult :=
  ⟨[⟨"amount", .float, true⟩, ⟨"amount", .unknown, false⟩],
    [[nestedCell, .number (.negative ⟨0x7FFFFFFFFFFFFFFF, by decide⟩), .text "\\é\x00"], []], 2, 7⟩

theorem isStorable_nestedCell : nestedCell.IsStorable where
  depth := by decide
  ordered := by
    simp only [nestedCell, Json.ofNat, Json.IsOrdered, Json.AreOrdered, Json.MembersAreOrdered,
      Keyed.Ascending]
    decide
  doubles := by
    simp only [nestedCell, Json.ofNat, Json.EveryNumber, Json.EveryNumberOfItems,
      Json.EveryNumberOfMembers]
    decide +kernel

theorem isStorable_mixedResult : mixedResult.IsStorable where
  cells := by
    simp only [mixedResult, List.forall_mem_cons, List.not_mem_nil, false_implies, implies_true,
      and_true]
    exact ⟨isStorable_nestedCell, ⟨by decide, trivial, trivial⟩, ⟨by decide, trivial, trivial⟩⟩
  rowCount := by decide
  elapsedMs := by decide

theorem lookup_save_mixed :
    mixedResult.IsStorable ∧ QueryResult.decode? mixedResult.encode = some mixedResult ∧
      ((lookup (.calm 999) "k").run
        ((save (.calm 0) "k" 1000 mixedResult).run ⟨.empty, .zero, []⟩).2).1 = some mixedResult :=
  ⟨isStorable_mixedResult, lookup_save isStorable_mixedResult rfl (by decide) rfl (by decide) _⟩

end Cache

end SnapshotAnalytics

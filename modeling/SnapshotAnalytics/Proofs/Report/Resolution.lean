import SnapshotAnalytics.Proofs.Query.RoundTrip
import SnapshotAnalytics.Proofs.Table.Encoding
import SnapshotAnalytics.Report.Resolution
import Mathlib.Data.Finset.Basic
import Mathlib.Order.Bounds.Defs

/-!
# Exact resolution

A warehouse is asked for the greatest or the least of the stored dates that satisfy a comparison with
the stored form of a day. Stored dates are in the order of the dates they stand for, and are read back
from the answer, so what is found is the nearest snapshot in the direction that was asked for.
-/

namespace SnapshotAnalytics

/-! ## §1 The snapshot for a day -/

namespace Direction

/-- The snapshot `d` stands for the day `target` in a table with the snapshots `days`: looking backward
the latest one not after the day, looking forward the earliest one not before it, and the day itself
where there is none. -/
def Resolves (direction : Direction) (days : Finset Date) (target d : Date) : Prop :=
  match direction with
  | backward =>
    IsGreatest {x | x ∈ days ∧ x ≤ target} d ∨ ((∀ x ∈ days, ¬ x ≤ target) ∧ d = target)
  | forward =>
    IsLeast {x | x ∈ days ∧ target ≤ x} d ∨ ((∀ x ∈ days, ¬ target ≤ x) ∧ d = target)

/-- What is found for the day `target` in a table with the snapshots `days`: looking backward the
latest one not after the day, looking forward the earliest one not before it, nothing where there is
none. -/
def Finds (direction : Direction) (days : Finset Date) (target : Date) : Option Date → Prop
  | some d =>
    match direction with
    | backward => IsGreatest {x | x ∈ days ∧ x ≤ target} d
    | forward => IsLeast {x | x ∈ days ∧ target ≤ x} d
  | none =>
    match direction with
    | backward => ∀ x ∈ days, ¬ x ≤ target
    | forward => ∀ x ∈ days, ¬ target ≤ x

/-- The snapshot that is reported for the day `target`: the one that is found, and the day itself where
none is. What is found on the epoch counts as nothing, for its stored form reads as no date. -/
def Reports (direction : Direction) (days : Finset Date) (target d : Date) : Prop :=
  ∃ found, direction.Finds days target found ∧ d = (found.filter (· ≠ .epoch)).getD target

variable {direction : Direction} {days : Finset Date} {target target' d d' : Date}

/-- A snapshot, and a day without one, stands for itself. -/
theorem Resolves.again (h : direction.Resolves days target d) (h' : direction.Resolves days d d') :
    d' = d := by
  -- Looking back from the greatest snapshot up to a day finds it again, and so does looking ahead
  -- from the least one.
  cases direction with
  | backward =>
    rcases h' with ⟨⟨_, hle⟩, hgreatest⟩ | ⟨_, hsame⟩
    · rcases h with ⟨⟨hd, _⟩, _⟩ | ⟨hnone, rfl⟩
      · exact Date.le_antisymm hle (hgreatest ⟨hd, d.le_refl⟩)
      · exact absurd hle (hnone d' (by assumption))
    · exact hsame
  | forward =>
    rcases h' with ⟨⟨_, hle⟩, hleast⟩ | ⟨_, hsame⟩
    · rcases h with ⟨⟨hd, _⟩, _⟩ | ⟨hnone, rfl⟩
      · exact Date.le_antisymm (hleast ⟨hd, d.le_refl⟩) hle
      · exact absurd hle (hnone d' (by assumption))
    · exact hsame

/-- What is found is a snapshot. -/
theorem Finds.mem (h : direction.Finds days target (some d)) : d ∈ days := by
  cases direction with
  | backward => exact h.1.1
  | forward => exact h.1.1

/-- Where no snapshot is of the epoch, what is reported for a day is the snapshot that stands for it. -/
theorem Reports.resolves (hdays : ∀ x ∈ days, x ≠ .epoch) (h : direction.Reports days target d) :
    direction.Resolves days target d := by
  obtain ⟨found, hfinds, rfl⟩ := h
  cases found with
  | some x =>
    -- What is found is passed on, as only the epoch stands for nothing.
    rw [Option.filter_some_pos (by simpa using hdays x hfinds.mem), Option.getD_some]
    cases direction with
    | backward => exact Or.inl hfinds
    | forward => exact Or.inl hfinds
  | none =>
    cases direction with
    | backward => exact Or.inr ⟨hfinds, rfl⟩
    | forward => exact Or.inr ⟨hfinds, rfl⟩

/-- Looking backward, nothing later than the day is reported for it. -/
theorem Reports.le (h : backward.Reports days target d) : d ≤ target := by
  obtain ⟨found, hfinds, rfl⟩ := h
  cases hread : found.filter (· ≠ .epoch) with
  | none => exact Date.le_refl _
  | some x =>
    obtain ⟨rfl, -⟩ := Option.filter_eq_some_iff.mp hread
    exact hfinds.1.2

/-- **Looking backward keeps the order of days**: for an earlier day no later snapshot is reported, be
they found or not. -/
theorem Reports.mono (h : backward.Reports days target d) (h' : backward.Reports days target' d')
    (hle : target ≤ target') : d ≤ d' := by
  have htarget : d ≤ target := h.le
  obtain ⟨found', hfinds', rfl⟩ := h'
  cases hread' : found'.filter (· ≠ .epoch) with
  | none => exact Date.le_trans htarget hle
  | some x' =>
    obtain ⟨rfl, hepoch'⟩ := Option.filter_eq_some_iff.mp hread'
    show d ≤ x'
    rcases Date.le_total x' target with hbefore | hbehind
    · -- Then it is also what is found for the earlier day.
      obtain ⟨found, hfinds, rfl⟩ := h
      have hmem : x' ∈ {x | x ∈ days ∧ x ≤ target} := ⟨hfinds'.1.1, hbefore⟩
      cases found with
      | none => exact absurd hbefore (hfinds x' hmem.1)
      | some x =>
        have hsame : x = x' :=
          Date.le_antisymm (hfinds'.2 ⟨hfinds.1.1, Date.le_trans hfinds.1.2 hle⟩) (hfinds.2 hmem)
        rw [hsame, hread']
        exact Date.le_refl x'
    · exact Date.le_trans htarget hbehind

end Direction

/-! ## §2 Warehouses that hold snapshots -/

namespace TableSchema

/-- The query for a function of the stored dates of a table that compare with a bound. -/
def extremeQuery (t : TableSchema) (function symbol bound : String) : Query :=
  ⟨s!"SELECT {function}({t.dateColumn}) AS snapshot FROM {t.name} WHERE " ++
      s!"{t.dateColumn} {symbol} " ++ s!"\x7btarget:{t.encoding.parameterType.name}\x7d",
    [⟨"target", t.encoding.parameterType, bound⟩]⟩

/-- A stored date compares with a bound, which is the right side of the comparison. -/
def Compares (t : TableSchema) (symbol bound s : String) : Prop :=
  (symbol = "<=" ∧ t.encoding.Precedes s bound) ∨ (symbol = ">=" ∧ t.encoding.Precedes bound s)

instance (t : TableSchema) (symbol bound s : String) : Decidable (t.Compares symbol bound s) :=
  inferInstanceAs (Decidable (_ ∨ _))

/-- The stored dates of a table that compare with a bound. -/
def matching (t : TableSchema) (days : Finset Date) (symbol bound : String) : Set String :=
  {s | (∃ d ∈ days, s = t.encoding.encode d) ∧ t.Compares symbol bound s}

/-- One stored date is found before another by a function of stored dates: the later one for a greatest
date, the earlier one for a least date. -/
def FoundBefore (t : TableSchema) (function s s' : String) : Prop :=
  (function = "maxOrNull" ∧ t.encoding.Precedes s' s) ∨
    (function = "minOrNull" ∧ t.encoding.Precedes s s')

/-- The cell that a function of stored dates gives: the one found before all others, null when there
is none. -/
def IsExtreme (t : TableSchema) (function : String) (stored : Set String) (cell : Json) : Prop :=
  (stored = ∅ ∧ cell = .null) ∨
    ∃ s ∈ stored, cell = .text s ∧ ∀ s' ∈ stored, t.FoundBefore function s s'

/-- Answers of a warehouse that holds the given snapshots of a table: each query for an extreme of the
stored dates that compare with the stored form of a day is answered with it. -/
def HeldIn (t : TableSchema) (answer : Query → Except QueryError QueryResult)
    (days : Finset Date) : Prop :=
  ∀ function ∈ ["maxOrNull", "minOrNull"], ∀ symbol ∈ ["<=", ">="],
    ∀ d : Date, d.HasFourDigitYear →
      ∃ cell type nullable elapsed, elapsed < UInt64.size ∧
        answer (t.extremeQuery function symbol (t.encoding.encode d)) =
          .ok (.ofRows [⟨"snapshot", type, nullable⟩] [[cell]] elapsed) ∧
        t.IsExtreme function (t.matching days symbol (t.encoding.encode d)) cell

/-- More answers make no difference. -/
theorem HeldIn.mono {t : TableSchema} {answer answer' : Query → Except QueryError QueryResult}
    {days : Finset Date} (h : t.HeldIn answer days)
    (hmore : ∀ q r, answer q = .ok r → answer' q = .ok r) : t.HeldIn answer' days := by
  intro function hfunction symbol hsymbol d hd
  obtain ⟨cell, type, nullable, elapsed, helapsed, hanswer, hextreme⟩ :=
    h function hfunction symbol hsymbol d hd
  exact ⟨cell, type, nullable, elapsed, helapsed, hmore _ _ hanswer, hextreme⟩

end TableSchema

namespace Resolution

/-- The pieces of the statement that looks for a snapshot, as text. -/
theorem sql_select (t : TableSchema) (direction : Direction) (target : Date) :
    (select t direction target).fragment.sql =
      s!"SELECT {direction.aggregate}({t.dateColumn}) AS snapshot FROM {t.name} WHERE " ++
        s!"{t.dateColumn} {direction.symbol} " ++
        s!"\x7btarget:{t.encoding.parameterType.name}\x7d" := by
  rw [← String.toList_inj]
  simp [Fragment.sql, Fragment.chars, Fragment.joined, Fragment.comparison, Fragment.pieceChars,
    Select.fragment, Select.filtered, Select.clause, Select.bounds, Selected.text, select,
    TableSchema.dateCondition, TableSchema.dateParameter, Parameter.placeholder, toString]

/-- The statement that looks for a snapshot asks for an extreme of the stored dates. -/
theorem query_select (t : TableSchema) (direction : Direction) (target : Date) :
    (select t direction target).query =
      t.extremeQuery direction.aggregate direction.symbol (t.encoding.encode target) := by
  have hparameters : (select t direction target).fragment.parameters =
      [⟨"target", t.encoding.parameterType, t.encoding.encode target⟩] := rfl
  rw [Select.query, Fragment.query, sql_select, hparameters]
  rfl

/-! ## §3 What is found -/

variable {t : TableSchema} {answer : Query → Except QueryError QueryResult} {days : Finset Date}
  {target : Date}

/-- The stored dates before or behind the stored form of a day are those of the snapshots not after or
not before it. -/
theorem encode_mem_matching (hdays : ∀ d ∈ days, d.HasFourDigitYear) (htarget : target.HasFourDigitYear)
    {d : Date} (hd : d ∈ days) (symbol : String) :
    t.encoding.encode d ∈ t.matching days symbol (t.encoding.encode target) ↔
      (symbol = "<=" ∧ d ≤ target) ∨ (symbol = ">=" ∧ target ≤ d) := by
  have hstored : ∃ d' ∈ days, t.encoding.encode d = t.encoding.encode d' := ⟨d, hd, rfl⟩
  simp only [TableSchema.matching, TableSchema.Compares, Set.mem_ofPred_eq, hstored, true_and,
    t.encoding.precedes_encode_iff (hdays d hd) htarget,
    t.encoding.precedes_encode_iff htarget (hdays d hd)]

/-- What is read of a cell that holds a stored snapshot. -/
theorem snapshot_text {d : Date} (hd : d.HasFourDigitYear) (type : CellType) (nullable : Bool)
    (elapsed : Nat) :
    snapshot target (.ofRows [⟨"snapshot", type, nullable⟩] [[.text (t.encoding.encode d)]] elapsed) =
      ((some d).filter (· ≠ .epoch)).getD target := by
  have hcell : QueryResult.cell? (.ofRows [⟨"snapshot", type, nullable⟩]
      [[.text (t.encoding.encode d)]] elapsed) 0 "snapshot" =
        some (.text (t.encoding.encode d)) := rfl
  rw [snapshot, hcell, Option.bind_some, Cell.date?, t.encoding.decode?_encode hd]

theorem snapshot_null (type : CellType) (nullable : Bool) (elapsed : Nat) :
    snapshot target (.ofRows [⟨"snapshot", type, nullable⟩] [[.null]] elapsed) = target :=
  rfl

/-- A warehouse that holds the snapshots of a table answers the statement that looks for a snapshot,
the answer can be stored and found again, and it holds the snapshot to report for the day. -/
theorem reports_snapshot (hheld : t.HeldIn answer days) (hdays : ∀ d ∈ days, d.HasFourDigitYear)
    (htarget : target.HasFourDigitYear) (direction : Direction) :
    ∃ r, answer (select t direction target).query = .ok r ∧
      QueryResult.decode? r.encode = some r ∧
      direction.Reports days target (snapshot target r) := by
  have hfunction : direction.aggregate ∈ ["maxOrNull", "minOrNull"] := by
    cases direction <;> simp [Direction.aggregate]
  have hsymbol : direction.symbol ∈ ["<=", ">="] := by
    cases direction <;> simp [Direction.symbol]
  obtain ⟨cell, type, nullable, elapsed, helapsed, hanswer, hextreme⟩ :=
    hheld _ hfunction _ hsymbol target htarget
  refine ⟨_, (query_select t direction target).symm ▸ hanswer, ?_, ?_⟩
  · have hcell : cell.IsCell := by
      rcases hextreme with ⟨_, rfl⟩ | ⟨s, _, rfl, _⟩
      · exact .null
      · exact .text s
    apply QueryResult.decode?_encode
    · simpa [QueryResult.ofRows] using hcell
    · simp [QueryResult.ofRows, UInt64.size]
    · exact helapsed
  · rcases hextreme with ⟨hempty, rfl⟩ | ⟨s, hs, rfl, hlast⟩
    · -- No stored date compares with the day, so no snapshot does.
      have hnone (d : Date) (hd : d ∈ days) :
          ¬ ((direction.symbol = "<=" ∧ d ≤ target) ∨ (direction.symbol = ">=" ∧ target ≤ d)) := by
        rw [← encode_mem_matching (t := t) hdays htarget hd, hempty]
        exact Set.notMem_empty _
      refine ⟨none, ?_, snapshot_null ..⟩
      cases direction with
      | backward => exact fun d hd hle => hnone d hd (Or.inl ⟨rfl, hle⟩)
      | forward => exact fun d hd hle => hnone d hd (Or.inr ⟨rfl, hle⟩)
    · obtain ⟨d, hd, rfl⟩ := hs.1
      rw [encode_mem_matching hdays htarget hd] at hs
      -- What the warehouse finds among the stored dates that compare holds among the snapshots.
      have hfound (d' : Date) (hd' : d' ∈ days)
          (hmatch : (direction.symbol = "<=" ∧ d' ≤ target) ∨
            (direction.symbol = ">=" ∧ target ≤ d')) :
          (direction.aggregate = "maxOrNull" ∧ d' ≤ d) ∨
            (direction.aggregate = "minOrNull" ∧ d ≤ d') := by
        have hmem := (encode_mem_matching (t := t) hdays htarget hd' direction.symbol).mpr hmatch
        simpa only [TableSchema.FoundBefore, t.encoding.precedes_encode_iff (hdays d' hd') (hdays d hd),
          t.encoding.precedes_encode_iff (hdays d hd) (hdays d' hd')] using hlast _ hmem
      refine ⟨some d, ?_, snapshot_text (hdays d hd) ..⟩
      cases direction with
      | backward =>
        have hle : d ≤ target := by simpa [Direction.symbol] using hs
        refine ⟨⟨hd, hle⟩, ?_⟩
        rintro d' ⟨hd', hle'⟩
        simpa [Direction.aggregate] using hfound d' hd' (Or.inl ⟨rfl, hle'⟩)
      | forward =>
        have hle : target ≤ d := by simpa [Direction.symbol] using hs
        refine ⟨⟨hd, hle⟩, ?_⟩
        rintro d' ⟨hd', hle'⟩
        simpa [Direction.aggregate] using hfound d' hd' (Or.inr ⟨rfl, hle'⟩)

/-- **Resolution is exact**: a warehouse that holds the snapshots of a table answers the statement that
looks for a snapshot, the answer can be stored and found again, and the snapshot it holds is the one
for the day. -/
theorem resolves_snapshot (hheld : t.HeldIn answer days)
    (hdays : ∀ d ∈ days, d.HasFourDigitYear ∧ d ≠ .epoch) (htarget : target.HasFourDigitYear)
    (direction : Direction) :
    ∃ r, answer (select t direction target).query = .ok r ∧
      QueryResult.decode? r.encode = some r ∧
      direction.Resolves days target (snapshot target r) := by
  obtain ⟨r, hanswer, hback, hreports⟩ :=
    reports_snapshot hheld (fun d hd => (hdays d hd).1) htarget direction
  exact ⟨r, hanswer, hback, hreports.resolves fun d hd => (hdays d hd).2⟩

end Resolution

/-! ## §4 Warehouses that go through their snapshots -/

/-- What is found in an ordered list comes before all that could have been found. -/
theorem rel_of_find? {α : Type} {R : α → α → Prop} {p : α → Bool} {items : List α} {x y : α}
    (hitems : items.Pairwise R) (hself : ∀ z ∈ items, R z z) (hx : items.find? p = some x)
    (hy : y ∈ items) (hp : p y = true) : R x y := by
  induction items with
  | nil => cases hy
  | cons z items ih =>
    obtain ⟨hfirst, hitems⟩ := List.pairwise_cons.mp hitems
    obtain ⟨hz, hself⟩ := List.forall_mem_cons.mp hself
    -- Either the first item is found, or it is neither of the two.
    by_cases hpz : p z = true
    · rw [List.find?_cons_of_pos hpz, Option.some.injEq] at hx
      subst hx
      rcases List.mem_cons.mp hy with rfl | hmem
      · exact hz
      · exact hfirst y hmem
    · rw [List.find?_cons_of_neg hpz] at hx
      rcases List.mem_cons.mp hy with rfl | hmem
      · exact absurd hp hpz
      · exact ih hitems hself hx hmem

namespace TableSchema

/-- The stored forms of dates that are given in order, the one that a function asks for first. -/
def listed (t : TableSchema) (days : List Date) (function : String) : List String :=
  if function = "maxOrNull" then (days.map t.encoding.encode).reverse
  else days.map t.encoding.encode

/-- The first of the listed dates that compares with a bound. -/
def extremeAmong (t : TableSchema) (days : List Date) (function symbol bound : String) : Json :=
  Json.ofText? ((t.listed days function).find? fun s => decide (t.Compares symbol bound s))

variable {t : TableSchema} {days : List Date} {function symbol bound : String}

theorem mem_listed {s : String} :
    s ∈ t.listed days function ↔ ∃ d ∈ days, s = t.encoding.encode d := by
  unfold listed
  split <;> simp [eq_comm]

theorem pairwise_listed (hyears : ∀ d ∈ days, d.HasFourDigitYear) (hsorted : days.Pairwise (· ≤ ·))
    (hfunction : function ∈ ["maxOrNull", "minOrNull"]) :
    (t.listed days function).Pairwise (t.FoundBefore function) := by
  have hascending : (days.map t.encoding.encode).Pairwise t.encoding.Precedes := by
    rw [List.pairwise_map]
    apply hsorted.imp_of_mem
    intro d d' hd hd' hle
    exact (t.encoding.precedes_encode_iff (hyears d hd) (hyears d' hd')).mpr hle
  -- For the greatest snapshot they are gone through from behind.
  unfold listed
  split
  · rename_i hmax
    rw [List.pairwise_reverse]
    exact hascending.imp fun h => Or.inl ⟨hmax, h⟩
  · rename_i hmax
    have hmin : function = "minOrNull" := by simpa [hmax] using hfunction
    exact hascending.imp fun h => Or.inr ⟨hmin, h⟩

theorem foundBefore_self (hyears : ∀ d ∈ days, d.HasFourDigitYear)
    (hfunction : function ∈ ["maxOrNull", "minOrNull"]) :
    ∀ s ∈ t.listed days function, t.FoundBefore function s s := by
  intro s hs
  obtain ⟨d, hd, rfl⟩ := mem_listed.mp hs
  have hle := (t.encoding.precedes_encode_iff (hyears d hd) (hyears d hd)).mpr d.le_refl
  rcases List.mem_pair.mp hfunction with hmax | hmin
  · exact Or.inl ⟨hmax, hle⟩
  · exact Or.inr ⟨hmin, hle⟩

/-- A warehouse that goes through its snapshots in order, from the front or from behind, finds the
extreme of those that compare. -/
theorem isExtreme_extremeAmong (hyears : ∀ d ∈ days, d.HasFourDigitYear)
    (hsorted : days.Pairwise (· ≤ ·)) (hfunction : function ∈ ["maxOrNull", "minOrNull"]) :
    t.IsExtreme function (t.matching days.toFinset symbol bound)
      (t.extremeAmong days function symbol bound) := by
  have hmatching (s : String) : s ∈ t.matching days.toFinset symbol bound ↔
      s ∈ t.listed days function ∧ t.Compares symbol bound s := by
    rw [mem_listed]
    simp [matching]
  unfold extremeAmong
  cases hfound : (t.listed days function).find? fun s => decide (t.Compares symbol bound s) with
  | none =>
    refine Or.inl ⟨Set.eq_empty_iff_forall_notMem.mpr fun s hs => ?_, rfl⟩
    obtain ⟨hmem, hcompares⟩ := (hmatching s).mp hs
    simpa [hcompares] using List.find?_eq_none.mp hfound s hmem
  | some s =>
    -- What is found first comes before all snapshots that compare, so it is the extreme one.
    have hmem := List.mem_of_find?_eq_some hfound
    have hcompares : t.Compares symbol bound s := by simpa using List.find?_some hfound
    refine Or.inr ⟨s, (hmatching s).mpr ⟨hmem, hcompares⟩, rfl, fun s' hs' => ?_⟩
    obtain ⟨hmem', hcompares'⟩ := (hmatching s').mp hs'
    exact rel_of_find? (pairwise_listed hyears hsorted hfunction)
      (foundBefore_self hyears hfunction) hfound hmem' (decide_eq_true hcompares')

end TableSchema

end SnapshotAnalytics

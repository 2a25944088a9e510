import SnapshotAnalytics.Proofs.Filter.Predicate
import SnapshotAnalytics.Proofs.Settings.Registry

/-!
# Kinds of snapshot columns

A date column is declared with the kind that its encoding stands for, and a column of maturity dates
with dates. Nothing keeps the settings from declaring the date column a second time, as a field or as
the column of maturity dates, and the last declaration counts. So filters on the date column bind
values of the type that snapshots are bound with exactly when no declaration says otherwise.
-/

namespace SnapshotAnalytics

/-! ## §1 Kinds of fields -/

/-- Every declaration of the date column agrees with the encoding of its dates. -/
structure TableSettings.KeepsEncoding (t : TableSettings) : Prop where
  declared : ∀ kind, Keyed.find? t.dateColumn t.fields = some kind → kind = t.encoding.kind
  maturity : t.maturityColumn = some t.dateColumn → t.encoding = .calendar

/-- Kinds are told apart by the types that their values are bound with. -/
theorem FieldKind.parameterType_inj {kind kind' : FieldKind} :
    kind.parameterType = kind'.parameterType ↔ kind = kind' := by
  cases kind <;> cases kind' <;> simp [parameterType]

theorem DateEncoding.parameterType_kind (e : DateEncoding) :
    e.kind.parameterType = e.parameterType := by
  cases e <;> rfl

theorem Predicate.type_of_bind {filter next : Nat} {kind : FieldKind} {field : String}
    {values : List String} {bound : List Parameter} (h : bind filter kind field next values = .ok bound) :
    ∀ p ∈ bound, p.type = kind.parameterType := by
  induction values generalizing next bound with
  | nil =>
    cases h
    exact nofun
  | cons value values ih =>
    simp only [bind, Checks.bind_eq_ok, Checks.pure_eq_ok] at h
    obtain ⟨normal, _, rest, hrest, rfl⟩ := h
    exact List.forall_mem_cons.mpr ⟨rfl, ih hrest⟩

namespace Settings

variable {name : String} {t : TableSettings}

/-- The last declaration of a field counts: as the column of maturity dates, then among the fields,
then as the date column. -/
theorem find?_schema (h : Keyed.Ascending t.fields) (field : String) :
    Keyed.find? field (schema name t).fields =
      if t.maturityColumn = some field then some .date
      else (Keyed.find? field t.fields).or
        (if field = t.dateColumn then some t.encoding.kind else none) := by
  have hdeclared : Keyed.find? field
      ((TableSchema.ofDateColumn name t.dateColumn t.encoding).withFields t.fields).fields =
        (Keyed.find? field t.fields).or
          (if field = t.dateColumn then some t.encoding.kind else none) := by
    rw [TableSchema.withFields_eq, Keyed.find?_foldl_insert h]
    congr 1
    exact Keyed.find?_cons field t.dateColumn t.encoding.kind []
  unfold schema
  -- The column of maturity dates is declared last, so its kind takes the place of any other.
  cases t.maturityColumn with
  | none =>
    rw [if_neg (by simp)]
    exact hdeclared
  | some column =>
    simp only [TableSchema.withMaturityColumn, TableSchema.withField]
    rw [Keyed.find?_insert, hdeclared]
    simp only [Option.some.injEq, eq_comm (a := field)]

theorem kindOf_maturityColumn (h : Keyed.Ascending t.fields) {column : String}
    (hcolumn : t.maturityColumn = some column) : (schema name t).kindOf column = .ok .date := by
  rw [TableSchema.kindOf_eq_ok_iff, find?_schema h, if_pos hcolumn]

/-- **The kind of the date column** of a checked table is that of its encoding exactly when no
declaration of the column says otherwise. -/
theorem kindOf_dateColumn (h : Keyed.Ascending t.fields) (hcheck : checkTable name t = .ok ()) :
    ∃ kind, (schema name t).kindOf t.dateColumn = .ok kind ∧
      (kind = t.encoding.kind ↔ t.KeepsEncoding) := by
  simp only [TableSchema.kindOf_eq_ok_iff, find?_schema h]
  by_cases hmaturity : t.maturityColumn = some t.dateColumn
  · -- The column of maturity dates is declared last, and its check lets fields declare only dates.
    have hdates := (checkTable_eq_ok_iff.mp hcheck).2.2 t.dateColumn hmaturity
    refine ⟨.date, if_pos hmaturity, ?_⟩
    constructor
    · intro hdate
      have hencoding : t.encoding = .calendar := by
        revert hdate
        cases t.encoding <;> simp [DateEncoding.kind]
      exact ⟨fun kind hkind => (hdates kind hkind).trans hdate, fun _ => hencoding⟩
    · intro hkeeps
      rw [hkeeps.maturity hmaturity]
      rfl
  · simp only [if_neg hmaturity, if_true]
    cases hfind : Keyed.find? t.dateColumn t.fields with
    | none =>
      refine ⟨t.encoding.kind, rfl, fun _ => ⟨?_, fun h => absurd h hmaturity⟩, fun _ => rfl⟩
      intro kind hkind
      rw [hfind] at hkind
      cases hkind
    | some declared =>
      refine ⟨declared, rfl, fun hsame => ⟨?_, fun h => absurd h hmaturity⟩, fun hkeeps => ?_⟩
      · intro kind hkind
        rw [hfind] at hkind
        cases hkind
        exact hsame
      · exact hkeeps.declared declared hfind

/-! ## §2 Registries of settings -/

/-- **Snapshot columns of checked settings.** In their registry a column of maturity dates holds
dates. The date column has the kind that its encoding stands for, and values that filters compare it
with are bound with the type of snapshots, exactly when no declaration of it says otherwise. -/
theorem columnKinds_of_check (s : Settings) (hlisted : s.IsListed) (hcheck : s.check = .ok ()) :
    ∃ tables, s.registry = .ok tables ∧ ∀ e ∈ s.tables, ∃ u, tables.table e.1 = .ok u ∧
      u.Follows e.1 e.2 ∧ (∀ column ∈ u.maturityColumn, u.kindOf column = .ok .date) ∧
      ∃ kind, u.kindOf u.dateColumn = .ok kind ∧
        (kind = u.encoding.kind ↔ e.2.KeepsEncoding) ∧
        ∀ (filter next : Nat) (values : List String) (bound : List Parameter) (name : String)
          (d : Date), Predicate.bind filter kind u.dateColumn next values = .ok bound →
          ∀ p ∈ bound, p.type = (u.dateParameter name d).type ↔ e.2.KeepsEncoding := by
  have hchecked : ∀ e ∈ s.tables, checkTable e.1 e.2 = .ok () :=
    fun e he => checkTable_of_check hcheck he
  refine ⟨schemas s.tables, registry_eq hlisted.tables hchecked, fun e he => ?_⟩
  have hfollows := schema_follows e.1 e.2
  obtain ⟨kind, hkind, hkeeps⟩ := kindOf_dateColumn (hlisted.fields e he) (hchecked e he)
  refine ⟨schema e.1 e.2, table_schemas hlisted.tables he, hfollows, ?_, kind, ?_, ?_, ?_⟩
  · intro column hcolumn
    rw [hfollows.maturityColumn] at hcolumn
    exact kindOf_maturityColumn (hlisted.fields e he) hcolumn
  · rw [hfollows.dateColumn]
    exact hkind
  · rw [hfollows.encoding]
    exact hkeeps
  · intro filter next values bound name d hbound p hp
    -- The type of a bound value is that of the kind of its field, and kinds have different types.
    rw [Predicate.type_of_bind hbound p hp, TableSchema.dateParameter, hfollows.encoding,
      ← DateEncoding.parameterType_kind, FieldKind.parameterType_inj]
    exact hkeeps

theorem columnKinds_of_check_books :
    ∃ tables, bookSettings.registry = .ok tables ∧ ∀ e ∈ bookSettings.tables,
      ∃ u, tables.table e.1 = .ok u ∧ u.kindOf u.dateColumn = .ok u.encoding.kind := by
  have hkeeps : ∀ e ∈ bookSettings.tables, e.2.KeepsEncoding := by
    have hfields : ∀ e ∈ bookSettings.tables, Keyed.find? e.2.dateColumn e.2.fields = none := by
      decide
    have hmaturity : ∀ e ∈ bookSettings.tables, e.2.maturityColumn ≠ some e.2.dateColumn := by
      decide
    intro e he
    refine ⟨fun kind hkind => ?_, fun h => absurd h (hmaturity e he)⟩
    rw [hfields e he] at hkind
    cases hkind
  obtain ⟨tables, htables, hall⟩ := columnKinds_of_check bookSettings isListed_bookSettings (by decide)
  refine ⟨tables, htables, fun e he => ?_⟩
  obtain ⟨u, hu, hfollows, _, kind, hkind, hsame, _⟩ := hall e he
  rw [hsame.mpr (hkeeps e he)] at hkind
  exact ⟨u, hu, hkind⟩

/-- A table with its date column declared as a text among the fields, and one whose dates are stored
as texts and are dates of maturity at once. -/
def redeclaredSettings : Settings :=
  { default with
    tables := [
      ("bonds", ⟨"matures", .compact, some "matures", []⟩),
      ("positions", ⟨"as_of_date", .calendar, none, [("as_of_date", .text)]⟩)] }

/-- The check lets both declarations pass, and the kinds are not those of the encodings. -/
theorem columnKinds_redeclared :
    redeclaredSettings.check = .ok () ∧
      ∃ tables bonds positions, redeclaredSettings.registry = .ok tables ∧
        tables.table "bonds" = .ok bonds ∧ bonds.encoding.kind = .text ∧
        bonds.kindOf bonds.dateColumn = .ok .date ∧
        tables.table "positions" = .ok positions ∧ positions.encoding.kind = .date ∧
        positions.kindOf positions.dateColumn = .ok .text := by
  refine ⟨by decide, _, _, _, rfl, rfl, rfl, rfl, rfl, rfl, rfl⟩

end Settings

end SnapshotAnalytics

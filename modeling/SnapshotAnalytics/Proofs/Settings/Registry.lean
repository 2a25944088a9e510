import SnapshotAnalytics.Proofs.Data.Readings
import SnapshotAnalytics.Proofs.Settings.Schemas

/-!
# Registries of checked settings

Settings that pass their check always give a registry. It has the tables of the settings, under their
names and with their columns, and no others; and what could not be registered never passes the check.
-/

namespace SnapshotAnalytics

open Checks

/-! ## §1 Settings that were read -/

/-- Tables are listed by name and the fields of each table likewise, every name once. -/
structure Settings.IsListed (s : Settings) : Prop where
  tables : Keyed.Ascending s.tables
  fields : ∀ e ∈ s.tables, Keyed.Ascending e.2.fields

namespace Toml

/-- The entries of a table were each read. -/
theorem of_mem_entries {α : Type} {read : Toml → Option α} {v : Toml} {entries : List (String × α)}
    (h : entries? read v = some entries) {e : String × α} (he : e ∈ entries) :
    ∃ part, read part = some e.2 := by
  unfold entries? at h
  split at h
  · rename_i members
    obtain ⟨member, -, hmember⟩ := Readings.exists_item_of_mapM h he
    obtain ⟨x, hx, rfl⟩ := Option.map_eq_some_iff.mp hmember
    exact ⟨member.2, hx⟩
  · cases h

end Toml

namespace Settings

theorem ascending_of_tableOfToml? {v : Toml} {t : TableSettings} (h : tableOfToml? v = some t) :
    Keyed.Ascending t.fields := by
  simp only [tableOfToml?, Option.bind_eq_bind, Option.bind_eq_some_iff] at h
  obtain ⟨slots, _, h⟩ := h
  split at h
  · simp only [Option.bind_eq_some_iff, pure, Option.some.injEq] at h
    obtain ⟨_, _, _, _, _, _, fields, _, rfl⟩ := h
    exact .ofList fields
  · cases h

theorem isListed_of_ofToml? {v : Toml} {s : Settings} (h : ofToml? v = some s) : s.IsListed := by
  simp only [ofToml?, Option.bind_eq_bind, Option.bind_eq_some_iff] at h
  obtain ⟨slots, _, h⟩ := h
  split at h
  · rename_i tables _
    simp only [Option.bind_eq_some_iff, pure, Option.some.injEq] at h
    obtain ⟨_, _, _, _, _, _, entries, hentries, rfl⟩ := h
    refine ⟨.ofList entries, fun e he => ?_⟩
    have hmem : e ∈ entries := Keyed.mem_of_mem_ofList he
    -- Settings without tables list none; those that are there were read from sections.
    cases tables with
    | none =>
      cases hentries
      cases hmem
    | some tables =>
      obtain ⟨part, hpart⟩ := Toml.of_mem_entries hentries hmem
      exact ascending_of_tableOfToml? hpart
  · cases h

/-- **What is read is listed**, in whatever order a document gives it. -/
theorem isListed_of_read {document : String} {s : Settings} (h : read document = .ok s) :
    s.IsListed := by
  unfold read at h
  split at h
  · rename_i found hfound
    simp only [bind_eq_ok, pure_eq_ok] at h
    obtain ⟨_, _, rfl⟩ := h
    obtain ⟨v, _, hv⟩ := Option.bind_eq_some_iff.mp hfound
    exact isListed_of_ofToml? hv
  · cases h

/-! ## §2 Registering -/

variable {s : Settings} {tables : List (String × TableSettings)} {e : String × TableSettings}

theorem checkTable_of_check (h : s.check = .ok ()) (he : e ∈ s.tables) :
    checkTable e.1 e.2 = .ok () := by
  simp only [check, bind_eq_ok] at h
  obtain ⟨_, _, _, _, htables⟩ := h
  exact forM_eq_ok.mp htables e he

/-- The schemas of tables, by their names. -/
def schemas (tables : List (String × TableSettings)) : TableRegistry :=
  tables.map fun e => (e.1, schema e.1 e.2)

theorem ascending_schemas (h : Keyed.Ascending tables) : Keyed.Ascending (schemas tables) :=
  List.pairwise_map.mpr h

theorem names_schemas (tables : List (String × TableSettings)) :
    (schemas tables).names = tables.map (·.1) := by
  simp [TableRegistry.names, schemas]

/-- In a registry of schemas every table is found under its name. -/
theorem table_schemas (h : Keyed.Ascending tables) (he : e ∈ tables) :
    (schemas tables).table e.1 = .ok (schema e.1 e.2) := by
  have hfound : Keyed.find? e.1 (schemas tables) = some (schema e.1 e.2) :=
    (Keyed.find?_eq_some_iff (ascending_schemas h)).mpr (List.mem_map_of_mem he)
  rw [TableRegistry.table, hfound]

/-- One step: a table whose name is above those that are there comes last. -/
theorem register_schema (h : Keyed.Ascending (tables ++ [e])) (hcheck : checkTable e.1 e.2 = .ok ()) :
    TableRegistry.register (schemas tables) (schema e.1 e.2) = .ok (schemas (tables ++ [e])) := by
  have hbelow : ∀ e' ∈ schemas tables, compare e'.1 (schema e.1 e.2).name = .lt := by
    intro e' he'
    obtain ⟨below, hbelow, rfl⟩ := List.mem_map.mp he'
    rw [(schema_follows e.1 e.2).name]
    exact (List.pairwise_append.mp h).2.2 below hbelow e (List.mem_singleton.mpr rfl)
  rw [TableRegistry.register, (checkTable_eq_ok_iff_check.mp hcheck).1]
  show Except.ok _ = _
  rw [Keyed.insert_of_forall_lt hbelow, (schema_follows e.1 e.2).name]
  simp [schemas]

/-- All steps: checked tables are all registered, in their order. -/
theorem registry_eq (hlisted : Keyed.Ascending s.tables)
    (hchecked : ∀ e ∈ s.tables, checkTable e.1 e.2 = .ok ()) :
    s.registry = .ok (schemas s.tables) := by
  unfold registry
  generalize s.tables = tables at hlisted hchecked ⊢
  induction tables using List.reverseRecOn with
  | nil => rfl
  | append_singleton tables e ih =>
    have hfront := ih (List.pairwise_append.mp hlisted).1 fun e' he' =>
      hchecked e' (List.mem_append_left _ he')
    have hlast := register_schema hlisted
      (hchecked e (List.mem_append_right _ (List.mem_singleton.mpr rfl)))
    rw [List.foldlM_append, hfront]
    simp only [List.foldlM_cons, List.foldlM_nil, hlast, Except.mapError, bind, Except.bind, pure,
      Except.pure]

/-- Whatever the settings are, their registry was made by registering declared tables, so what holds of
registered tables holds of configured ones. -/
theorem registered_of_registry {registry : TableRegistry} (h : s.registry = .ok registry) :
    registry.Registered := by
  unfold Settings.registry at h
  have hstart : TableRegistry.Registered [] := .empty
  -- The induction is on the tables that are left, from whatever registry the others have made.
  generalize ([] : TableRegistry) = start at h hstart
  generalize s.tables = tables at h
  induction tables generalizing start with
  | nil =>
    cases h
    exact hstart
  | cons e tables ih =>
    obtain ⟨name, t⟩ := e
    rw [List.foldlM_cons] at h
    obtain ⟨next, hnext, hrest⟩ := bind_eq_ok.mp h
    refine ih next ?_ hrest
    cases hregister : TableRegistry.register start (schema name t) with
    | error cause =>
      simp only [hregister] at hnext
      cases hnext
    | ok tables' =>
      simp only [hregister] at hnext
      cases hnext
      exact .register hstart schema_declared hregister

/-- A name that no schema could be registered with is refused with the settings. -/
theorem check_eq_error_of_table {u : TableSchema} {name : String}
    (hu : u.check = .error (.badTableName name)) (hname : name ∈ s.tables.map (·.1)) :
    ∃ e, s.check = .error e := by
  cases hcheck : s.check with
  | error e => exact ⟨e, rfl⟩
  | ok _ =>
    obtain ⟨e, he, rfl⟩ := List.mem_map.mp hname
    have hok := (checkTable_eq_ok_iff.mp (checkTable_of_check hcheck he)).1
    rw [isTableName_eq, TableSchema.isTableIdentifier_of_badTableName hu] at hok
    cases hok

/-- A column that no schema could be registered with is refused with the settings. -/
theorem check_eq_error_of_column {u : TableSchema} {table field : String}
    (hu : u.check = .error (.badFieldName table field)) (he : e ∈ s.tables)
    (hfield : field ∈ e.2.columns) : ∃ e, s.check = .error e := by
  cases hcheck : s.check with
  | error e => exact ⟨e, rfl⟩
  | ok _ =>
    have hok := (checkTable_eq_ok_iff.mp (checkTable_of_check hcheck he)).2.1 field hfield
    rw [TableSchema.isIdentifier_of_badFieldName hu] at hok
    cases hok

/-! ## §3 Registries of settings -/

/-- **Checked settings always give a registry, and it follows them.** It has the tables of the
settings under their names, each with the columns that its settings name and no others; and what the
check of a schema refuses, the name of a table or of a column, the check of the settings refuses. -/
theorem registry_of_check (s : Settings) (hlisted : s.IsListed) :
    (s.check = .ok () → ∃ tables, s.registry = .ok tables ∧ tables.names = s.tables.map (·.1) ∧
      ∀ e ∈ s.tables, ∃ u, tables.table e.1 = .ok u ∧ u.Follows e.1 e.2) ∧
    (∀ (u : TableSchema) (name : String), u.check = .error (.badTableName name) →
      name ∈ s.tables.map (·.1) → ∃ e, s.check = .error e) ∧
    ∀ (u : TableSchema) (table field : String), u.check = .error (.badFieldName table field) →
      (∃ e ∈ s.tables, field ∈ e.2.columns) → ∃ e, s.check = .error e := by
  refine ⟨fun hcheck => ?_, ?_, ?_⟩
  · refine ⟨schemas s.tables, ?_, names_schemas s.tables, fun e he => ?_⟩
    · exact registry_eq hlisted.tables fun e he => checkTable_of_check hcheck he
    · exact ⟨schema e.1 e.2, table_schemas hlisted.tables he, schema_follows e.1 e.2⟩
  · intro u name hu hname
    exact check_eq_error_of_table hu hname
  · rintro u table field hu ⟨e, he, hfield⟩
    exact check_eq_error_of_column hu he hfield

/-- Two tables, one of them in a database of its own and with dates of maturity. -/
def bookSettings : Settings :=
  { default with
    tables := [
      ("positions", ⟨"as_of_date", .calendar, none, [("amount", .number), ("desk", .text)]⟩),
      ("prod.trades", ⟨"snap", .compact, some "matures", [("notional", .number)]⟩)] }

/-- A table whose name has one part too many. -/
def nestedSettings : Settings :=
  { default with tables := [("prod.books.trades", ⟨"snap", .compact, none, []⟩)] }

theorem isListed_bookSettings : bookSettings.IsListed := by
  refine ⟨by simp [Keyed.Ascending, bookSettings]; rfl, ?_⟩
  simp only [bookSettings, List.forall_mem_cons, Keyed.Ascending]
  exact ⟨by simp; rfl, by simp, nofun⟩

theorem registry_of_check_books :
    (∃ tables, bookSettings.registry = .ok tables ∧ tables.names = ["positions", "prod.trades"] ∧
      ∀ e ∈ bookSettings.tables, ∃ u, tables.table e.1 = .ok u ∧ u.Follows e.1 e.2) ∧
    ∃ e, nestedSettings.check = .error e := by
  have hnested : nestedSettings.IsListed := by
    refine ⟨List.pairwise_singleton _ _, ?_⟩
    rintro e he
    obtain rfl := List.mem_singleton.mp he
    exact List.Pairwise.nil
  refine ⟨(registry_of_check bookSettings isListed_bookSettings).1 (by decide), ?_⟩
  -- The name is refused with any schema, so it is refused here.
  exact (registry_of_check nestedSettings hnested).2.1
    (.ofDateColumn "prod.books.trades" "snap" .compact) "prod.books.trades" (by decide)
    (List.mem_singleton.mpr rfl)

end Settings

end SnapshotAnalytics

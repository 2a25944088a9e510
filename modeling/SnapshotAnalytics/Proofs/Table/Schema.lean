import SnapshotAnalytics.Proofs.Data.Keyed
import SnapshotAnalytics.Proofs.Text.Identifier
import SnapshotAnalytics.Table.Schema

/-!
# Registered tables

Every table that can be looked up has passed its check, so its name and the names of its fields are
identifiers. A registry comes about only by registering tables, one after the other.
-/

namespace SnapshotAnalytics

/-! ## §1 Declared tables -/

namespace TableSchema

/-- A table that was declared: its date column first, then fields and the maturity column. -/
inductive Declared : TableSchema → Prop
  | ofDateColumn (name dateColumn : String) (encoding : DateEncoding) :
      Declared (ofDateColumn name dateColumn encoding)
  | withField {t : TableSchema} (h : Declared t) (name : String) (kind : FieldKind) :
      Declared (t.withField name kind)
  | withMaturityColumn {t : TableSchema} (h : Declared t) (name : String) :
      Declared (t.withMaturityColumn name)

/-- The date column and the maturity column are among the fields. -/
theorem Declared.columns {t : TableSchema} (h : t.Declared) :
    (∃ field ∈ t.fields, field.1 = t.dateColumn) ∧
      ∀ column ∈ t.maturityColumn, ∃ field ∈ t.fields, field.1 = column := by
  -- Fields are only added, and what is declared again keeps its name.
  induction h with
  | ofDateColumn name dateColumn encoding =>
    refine ⟨⟨_, List.mem_singleton.mpr rfl, rfl⟩, ?_⟩
    intro column hcolumn
    cases hcolumn
  | withField _ name kind ih =>
    exact ⟨Keyed.key_mem_insert kind ih.1,
      fun column hcolumn => Keyed.key_mem_insert kind (ih.2 column hcolumn)⟩
  | @withMaturityColumn t _ name ih =>
    refine ⟨Keyed.key_mem_insert (k := name) FieldKind.date ih.1, ?_⟩
    intro column hcolumn
    cases hcolumn
    exact ⟨(name, FieldKind.date), Keyed.mem_insert_self name FieldKind.date t.fields, rfl⟩

/-! ## §2 Checked tables -/

/-- A table that is named by an identifier, as are its fields, with its date columns among them. -/
structure Checked (t : TableSchema) : Prop where
  name : Text.isTableIdentifier t.name = true
  fields : ∀ field ∈ t.fields, Text.isIdentifier field.1 = true
  dateColumn : ∃ field ∈ t.fields, field.1 = t.dateColumn
  maturityColumn : ∀ column ∈ t.maturityColumn, ∃ field ∈ t.fields, field.1 = column

variable {t : TableSchema} {field : String}

theorem checked_of_check (hdeclared : t.Declared) (h : t.check = .ok ()) : t.Checked := by
  unfold check at h
  split at h
  · cases h
  · rename_i hname
    split at h
    · cases h
    · rename_i hnone
      have hfields : ∀ field ∈ t.fields, Text.isIdentifier field.1 = true := by
        intro field hfield
        simpa using List.find?_eq_none.mp hnone field hfield
      exact ⟨by simpa using hname, hfields, hdeclared.columns.1, hdeclared.columns.2⟩

theorem kindOf_eq_ok {kind : FieldKind} (h : t.kindOf field = .ok kind) :
    (field, kind) ∈ t.fields := by
  unfold kindOf at h
  split at h
  · rename_i found hfound
    cases h
    exact Keyed.mem_of_find? hfound
  · cases h

/-- A field that is declared has a kind. -/
theorem require_eq_ok (h : t.require field = .ok ()) : ∃ kind, t.kindOf field = .ok kind := by
  cases hkind : t.kindOf field with
  | ok kind => exact ⟨kind, rfl⟩
  | error e =>
    rw [require, hkind] at h
    cases h

theorem kindOf_eq_ok_iff {kind : FieldKind} :
    t.kindOf field = .ok kind ↔ Keyed.find? field t.fields = some kind := by
  unfold kindOf
  split <;> simp_all

/-- A field can be asked for exactly when it is listed. -/
theorem require_eq_ok_iff : t.require field = .ok () ↔ field ∈ t.fields.map (·.1) := by
  rw [← Keyed.exists_find?_iff]
  simp only [← kindOf_eq_ok_iff]
  constructor
  · exact require_eq_ok
  · rintro ⟨kind, hkind⟩
    rw [require, hkind]
    rfl

namespace Checked

/-- A declared field of a checked table is named by an identifier. -/
theorem isIdentifier_of_kindOf (ht : t.Checked) {kind : FieldKind}
    (h : t.kindOf field = .ok kind) : Text.isIdentifier field = true :=
  ht.fields _ (kindOf_eq_ok h)

theorem isIdentifier_of_require (ht : t.Checked) (h : t.require field = .ok ()) :
    Text.isIdentifier field = true := by
  obtain ⟨kind, hkind⟩ := require_eq_ok h
  exact ht.isIdentifier_of_kindOf hkind

end Checked

end TableSchema

/-! ## §3 Registries -/

namespace TableRegistry

/-- A registry to which declared tables were registered, one after the other. -/
inductive Registered : TableRegistry → Prop
  | empty : Registered []
  | register {tables tables' : TableRegistry} {t : TableSchema} (h : Registered tables)
      (hdeclared : t.Declared) (ht : tables.register t = .ok tables') : Registered tables'

namespace Registered

variable {tables : TableRegistry}

/-- Every table is checked and stands under its own name. -/
theorem checked (h : Registered tables) : ∀ e ∈ tables, e.2.name = e.1 ∧ e.2.Checked := by
  induction h with
  | empty =>
    intro e he
    cases he
  | @register tables tables' t _ hdeclared ht ih =>
    intro e he
    -- A table that fails its check is not registered at all.
    cases hcheck : t.check with
    | error cause =>
      rw [TableRegistry.register, hcheck] at ht
      cases ht
    | ok _ =>
      rw [TableRegistry.register, hcheck] at ht
      cases ht
      rcases Keyed.mem_of_mem_insert he with rfl | hold
      · exact ⟨rfl, TableSchema.checked_of_check hdeclared hcheck⟩
      · exact ih e hold

/-- A table that is looked up is checked and has the name it is looked up by. -/
theorem of_table (h : Registered tables) {name : String} {t : TableSchema}
    (ht : tables.table name = .ok t) : t.name = name ∧ t.Checked := by
  unfold TableRegistry.table at ht
  split at ht
  · rename_i found hfound
    cases ht
    exact h.checked _ (Keyed.mem_of_find? hfound)
  · cases ht

/-- A table that is found is found under its own name. -/
theorem table_name (h : Registered tables) {name : String} {t : TableSchema}
    (ht : tables.table name = .ok t) : tables.table t.name = .ok t :=
  (h.of_table ht).1 ▸ ht

end Registered

end TableRegistry

end SnapshotAnalytics

import Mathlib.Data.Option.Basic
import SnapshotAnalytics.Proofs.Filter.Predicate
import SnapshotAnalytics.Proofs.Report.Plans
import SnapshotAnalytics.Report.Resolution

/-!
# Statements of reports

What is sent for a report, and what is sent to find its snapshots, is written in the words of a
registered table: only declared fields, the name of the table and fixed words stand in its text, and
whatever a user can choose freely is bound to a name.
-/

namespace SnapshotAnalytics

open Text

variable {t : TableSchema}

/-- What holds of everything that is made from a value holds of its list, whether there is one or
not. -/
theorem forall_mem_toList_map {α β : Type} {p : β → Prop} {f : α → β} {value : Option α}
    (h : ∀ x ∈ value, p (f x)) : ∀ y ∈ (value.map f).toList, p y :=
  fun y hy => Option.forall_mem_map.mpr h y (Option.mem_toList.mp hy)

/-! ## §1 Fields, measures and dates -/

theorem TableSchema.IsPhrase.of_require (ht : t.Checked) {field : String}
    (h : t.require field = .ok ()) : t.IsPhrase field := by
  obtain ⟨kind, hkind⟩ := TableSchema.require_eq_ok h
  exact .field ht (TableSchema.kindOf_eq_ok hkind)

/-- An expression with a name of its own. -/
theorem Selected.isPhrase_named {expression name : String} (h : t.IsPhrase expression)
    (hname : t.IsPhrase name) : t.IsPhrase (text ⟨expression, some name⟩) :=
  h.separated (by decide) hname

/-- A column to order by, in a direction or without one. -/
theorem Ordered.isPhrase_text {column : String} (h : t.IsPhrase column)
    (direction? : Option OrderDirection) : t.IsPhrase (text ⟨column, direction?⟩) := by
  cases direction? with
  | none => exact h
  | some direction => exact h.separated (by decide) (.of_isFixed (by cases direction <;> decide))

theorem Measure.isPhrase_numeric {field : String} (h : t.IsPhrase field) :
    t.IsPhrase (numeric field) :=
  (h.opened (by decide)).closed (by decide)

/-- A checked measure reads declared fields only. -/
theorem Measure.isPhrase_sql (ht : t.Checked) {m : Measure} (h : m.check t = .ok ()) :
    t.IsPhrase m.sql := by
  obtain ⟨hfield, hweighted⟩ := declared h
  have hname : t.IsPhrase m.field := .of_require ht hfield
  have hx := isPhrase_numeric hname
  cases haggregation : m.aggregation <;> simp only [sql, haggregation]
  -- One function around the measured field, read as a number or counted as it is.
  case sum | avg | min | max => exact (hx.opened (by decide)).closed (by decide)
  case count | countDistinct => exact (hname.opened (by decide)).closed (by decide)
  case weightedAvg =>
    obtain ⟨weight, hweight, hdeclared⟩ := hweighted haggregation
    have hw := isPhrase_numeric (.of_require ht hdeclared)
    rw [hweight, Option.getD_some]
    have hproduct : t.IsPhrase ("ifNull(sum(" ++ numeric m.field ++ " * " ++ numeric weight) :=
      (hx.opened (by decide)).separated (by decide) hw
    have hquotient : t.IsPhrase ("ifNull(sum(" ++ numeric m.field ++ " * " ++ numeric weight
        ++ ") / nullIf(sum(" ++ numeric weight) :=
      hproduct.separated (by decide) hw
    exact hquotient.closed (by decide)

theorem TableSchema.IsPhrase.dateColumn (ht : t.Checked) : t.IsPhrase t.dateColumn := by
  obtain ⟨field, hfield, hname⟩ := ht.dateColumn
  rw [← hname]
  exact .field ht hfield

theorem TableSchema.Checked.isWritten_dateCondition (ht : t.Checked) (symbol name : String)
    (hsymbol : isFixed symbol = true) (hname : Parameter.isName name = true) (d : Date) :
    (t.dateCondition symbol name d).IsWritten t :=
  .comparison (.dateColumn ht) (.of_isFixed hsymbol) hname

/-- A snapshot and compiled filters. -/
theorem TableSchema.Checked.isWritten_conditions (ht : t.Checked) {filters : List Filter}
    {predicate : Predicate} (h : Predicate.compile t filters = .ok predicate) (snapshot : Date) :
    ∀ f ∈ t.dateCondition "=" "snapshot" snapshot :: predicate.conditions, f.IsWritten t :=
  List.forall_mem_cons.mpr
    ⟨ht.isWritten_dateCondition "=" "snapshot" (by decide) (by decide) snapshot,
      Predicate.isWritten_conditions ht h⟩

/-! ## §2 Selections -/

theorem Resolution.isWritten_select (ht : t.Checked) (direction : Direction) (target : Date) :
    (select t direction target).IsWritten t := by
  have hcall : t.IsPhrase s!"{direction.aggregate}({t.dateColumn})" := by
    have hopening : opens (direction.aggregate ++ "(") = true := by cases direction <;> decide
    exact ((TableSchema.IsPhrase.dateColumn ht).opened hopening).closed (by decide)
  have hsymbol : isFixed direction.symbol = true := by cases direction <;> decide
  refine ⟨rfl, ?_, ?_, List.forall_mem_nil _, List.forall_mem_nil _⟩
  · exact List.forall_mem_singleton.mpr (Selected.isPhrase_named hcall (.of_isFixed (by decide)))
  · exact List.forall_mem_singleton.mpr
      (ht.isWritten_dateCondition direction.symbol "target" hsymbol (by decide) target)

section

variable {tables : TableRegistry}

theorem BreakdownPlan.isPhrase_order (plan : BreakdownPlan) :
    ∀ o ∈ plan.order, t.IsPhrase o.text := by
  have hgroup (direction? : Option OrderDirection) :
      t.IsPhrase (Ordered.text ⟨"group_key", direction?⟩) :=
    Ordered.isPhrase_text (.of_isFixed (by decide)) direction?
  have hcolumn : t.IsPhrase plan.spec.rankBy.column :=
    .of_isFixed (by cases plan.spec.rankBy <;> decide)
  -- Groups that are ranked by their label need no second column to tell them apart.
  unfold order
  split
  · exact List.forall_mem_cons.mpr
      ⟨Ordered.isPhrase_text (.of_isFixed (by decide)) _, List.forall_mem_singleton.mpr (hgroup none)⟩
  · refine List.forall_mem_cons.mpr ⟨Ordered.isPhrase_text hcolumn _, ?_⟩
    split
    · exact List.forall_mem_nil _
    · exact List.forall_mem_singleton.mpr (hgroup none)

theorem BreakdownPlan.Prepared.isWritten_select {plan : BreakdownPlan} (ht : plan.table.Checked)
    (h : plan.Prepared tables) (snapshot : Date) : (plan.select snapshot).IsWritten plan.table := by
  have hspec := BreakdownSpec.checked h.checked
  -- There are at most three results, so their numbered names are fixed words.
  have hresults : ∀ i < 3, isFixed s!"result{i + 1}" = true := by decide
  refine ⟨rfl, ?_, ht.isWritten_conditions h.predicate snapshot, ?_, plan.isPhrase_order⟩
  · refine List.forall_mem_cons.mpr ⟨?_, List.forall_mem_cons.mpr ⟨?_, ?_⟩⟩
    · exact Selected.isPhrase_named (.of_require ht h.declared) (.of_isFixed (by decide))
    · exact Selected.isPhrase_named (Measure.isPhrase_sql ht hspec.measure) (.of_isFixed (by decide))
    · intro column hcolumn
      obtain ⟨i, hi, rfl⟩ := List.mem_mapIdx.mp hcolumn
      have hmeasure := hspec.results _ (List.getElem_mem hi)
      exact Selected.isPhrase_named (Measure.isPhrase_sql ht hmeasure)
        (.of_isFixed (hresults i (Nat.lt_of_lt_of_le hi hspec.few)))
  · exact List.forall_mem_singleton.mpr (.of_isFixed (by decide))

theorem StatCardPlan.Prepared.isWritten_select {plan : StatCardPlan} (ht : plan.table.Checked)
    (h : plan.Prepared tables) (snapshot : Date) : (plan.select snapshot).IsWritten plan.table := by
  refine ⟨rfl, ?_, ht.isWritten_conditions h.predicate snapshot, List.forall_mem_nil _,
    List.forall_mem_nil _⟩
  intro column hcolumn
  obtain ⟨i, hi, rfl⟩ := List.mem_mapIdx.mp hcolumn
  have hmeasure := h.checked _ (List.getElem_mem hi)
  exact Selected.isPhrase_named (Measure.isPhrase_sql ht hmeasure) (.figure i)

/-- The column of the labels, its group and its order, for a field to group by if there is one. -/
theorem TableSchema.Checked.isWritten_grouping (ht : t.Checked) {groupBy : Option String}
    (h : ∀ field ∈ groupBy, t.require field = .ok ()) :
    (∀ column ∈ (groupBy.map fun field => (⟨field, some "group_key"⟩ : Selected)).toList,
      t.IsPhrase column.text) ∧
    (∀ group ∈ (groupBy.map fun _ => "group_key").toList, t.IsPhrase group) ∧
    ∀ o ∈ (groupBy.map fun _ => (⟨"group_key", none⟩ : Ordered)).toList, t.IsPhrase o.text := by
  have hlabel : t.IsPhrase "group_key" := .of_isFixed (by decide)
  exact ⟨forall_mem_toList_map fun field hfield =>
      Selected.isPhrase_named (.of_require ht (h field hfield)) hlabel,
    forall_mem_toList_map fun _ _ => hlabel, forall_mem_toList_map fun _ _ => hlabel⟩

theorem HistoryPlan.Prepared.isWritten_select {plan : HistoryPlan} (ht : plan.table.Checked)
    (h : plan.Prepared tables) (base : Date) : (plan.select base).IsWritten plan.table := by
  obtain ⟨hcolumns, hgroups, horder⟩ := ht.isWritten_grouping h.declared
  have hsnapshot : plan.table.IsPhrase "snapshot" := .of_isFixed (by decide)
  have hdate := Selected.isPhrase_named (.dateColumn ht) hsnapshot
  have hvalue : plan.table.IsPhrase (Selected.text ⟨plan.spec.measure.sql, some "value"⟩) :=
    Selected.isPhrase_named (Measure.isPhrase_sql ht h.checked) (.of_isFixed (by decide))
  have hbase := ht.isWritten_dateCondition "<=" "base" (by decide) (by decide) base
  -- The first date may be missing, and then there is no condition on it.
  have hstart : ∀ f ∈ (plan.spec.start.map (plan.table.dateCondition ">=" "start")).toList,
      f.IsWritten plan.table :=
    forall_mem_toList_map fun d _ =>
      ht.isWritten_dateCondition ">=" "start" (by decide) (by decide) d
  refine ⟨rfl, ?_, ?_, List.forall_mem_cons.mpr ⟨hsnapshot, hgroups⟩,
    List.forall_mem_cons.mpr ⟨hsnapshot, horder⟩⟩
  · exact List.forall_mem_append.mpr
      ⟨List.forall_mem_cons.mpr ⟨hdate, hcolumns⟩, List.forall_mem_singleton.mpr hvalue⟩
  · exact List.forall_mem_append.mpr
      ⟨List.forall_mem_cons.mpr ⟨hbase, hstart⟩, Predicate.isWritten_conditions ht h.predicate⟩

theorem MaturityPlan.Prepared.isWritten_select {plan : MaturityPlan} (ht : plan.table.Checked)
    (h : plan.Prepared tables) (snapshot : Date) : (plan.select snapshot).IsWritten plan.table := by
  obtain ⟨hcolumns, hgroups, horder⟩ := ht.isWritten_grouping h.declared
  have hmaturity : plan.table.IsPhrase plan.maturity := .field ht (TableSchema.kindOf_eq_ok h.date)
  have hmonth : plan.table.IsPhrase "month" := .of_isFixed (by decide)
  have hstart : plan.table.IsPhrase s!"toStartOfMonth({plan.maturity})" :=
    (hmaturity.opened (by decide)).closed (by decide)
  have hvalue : plan.table.IsPhrase (Selected.text ⟨plan.spec.measure.sql, some "value"⟩) :=
    Selected.isPhrase_named (Measure.isPhrase_sql ht h.checked) (.of_isFixed (by decide))
  have hsnapshot := ht.isWritten_dateCondition "=" "snapshot" (by decide) (by decide) snapshot
  -- The column of maturity dates is compared as a date, whatever the encoding of snapshots.
  have hfrom : Fragment.IsWritten plan.table
      (.comparison plan.maturity ">=" ⟨"from", .date, snapshot.text⟩) :=
    .comparison hmaturity (.of_isFixed (by decide)) (by decide : Parameter.isName "from" = true)
  refine ⟨rfl, ?_, ?_, List.forall_mem_cons.mpr ⟨hmonth, hgroups⟩,
    List.forall_mem_cons.mpr ⟨hmonth, horder⟩⟩
  · exact List.forall_mem_append.mpr
      ⟨List.forall_mem_cons.mpr ⟨Selected.isPhrase_named hstart hmonth, hcolumns⟩,
        List.forall_mem_singleton.mpr hvalue⟩
  · exact List.forall_mem_cons.mpr ⟨hsnapshot, List.forall_mem_cons.mpr
      ⟨hfrom, Predicate.isWritten_conditions ht h.predicate⟩⟩

theorem RowsPlan.Prepared.isWritten_select {plan : RowsPlan} (ht : plan.table.Checked)
    (h : plan.Prepared tables) (snapshot : Date) : (plan.select snapshot).IsWritten plan.table := by
  -- Without columns of its own a listing shows all fields of the table.
  have hcolumns : ∀ column ∈ plan.columns, plan.table.IsPhrase column := by
    rw [h.columns]
    split
    · intro column hcolumn
      obtain ⟨field, hfield, rfl⟩ := List.mem_map.mp hcolumn
      exact .field ht hfield
    · exact fun column hcolumn => .of_require ht (h.declared column hcolumn)
  refine ⟨rfl, ?_, ht.isWritten_conditions h.predicate snapshot, List.forall_mem_nil _, ?_⟩
  · intro selected hselected
    obtain ⟨column, hcolumn, rfl⟩ := List.mem_map.mp hselected
    exact hcolumns column hcolumn
  · exact forall_mem_toList_map fun column hcolumn =>
      Ordered.isPhrase_text (.of_require ht (h.ordered column hcolumn)) _

theorem DistinctPlan.Prepared.isWritten_select {plan : DistinctPlan} (ht : plan.table.Checked)
    (h : plan.Prepared tables) (snapshot : Date) : (plan.select snapshot).IsWritten plan.table := by
  have hvalue : plan.table.IsPhrase "value" := .of_isFixed (by decide)
  have hexpression : plan.table.IsPhrase s!"DISTINCT {plan.request.field}" :=
    TableSchema.IsPhrase.opened (by decide) (.of_require ht h.declared)
  refine ⟨rfl, ?_, ht.isWritten_conditions h.predicate snapshot, List.forall_mem_nil _, ?_⟩
  · exact List.forall_mem_singleton.mpr (Selected.isPhrase_named hexpression hvalue)
  · exact List.forall_mem_singleton.mpr hvalue

/-- What is sent for an accepted listing: rows, or distinct values. -/
inductive Listing.Sent (tables : TableRegistry) : Query → Prop
  | rows {r : RowsRequest} {plan : RowsPlan} (h : RowsPlan.prepare tables r = .ok plan)
      (snapshot : Date) : Sent tables (plan.select snapshot).query
  | distinct {r : DistinctRequest} {plan : DistinctPlan}
      (h : DistinctPlan.prepare tables r = .ok plan) (snapshot : Date) :
      Sent tables (plan.select snapshot).query

/-- What is sent for a listing comes from a sound fragment. -/
theorem Listing.Sent.exists_isSound (hregistered : tables.Registered) {q : Query}
    (h : Listing.Sent tables q) : ∃ f : Fragment, f.IsSound ∧ f.query = q := by
  cases h with
  | rows h snapshot =>
    have hplan := (RowsPlan.prepared h).1
    have ht := (hregistered.of_table hplan.table).2
    exact ⟨_, ((hplan.isWritten_select ht snapshot).fragment ht).isSound ht, rfl⟩
  | distinct h snapshot =>
    have hplan := (DistinctPlan.prepared h).1
    have ht := (hregistered.of_table hplan.table).2
    exact ⟨_, ((hplan.isWritten_select ht snapshot).fragment ht).isSound ht, rfl⟩

end

end SnapshotAnalytics

import SnapshotAnalytics.Proofs.Report.RowParts
import SnapshotAnalytics.Proofs.Report.StatementOrder
import SnapshotAnalytics.Proofs.Report.TopAndOthers

/-!
# Groups from a warehouse

A warehouse that holds groups for each snapshot answers the statement of a breakdown with one record
for each group that the statement lists. The groups are read back from the records, and every row of a
breakdown is made of them: a row of its own shows one group beside the earlier group of its label, and
its share is that in the sum of what was listed.
-/

namespace SnapshotAnalytics

/-- What is joined starts with the first fragment. -/
theorem Fragment.exists_joined_cons (between : String) (f : Fragment) (fs : List Fragment) :
    ∃ rest, joined between (f :: fs) = f ++ rest := by
  cases fs with
  | nil => exact ⟨[], (List.append_nil f).symm⟩
  | cons f' fs => exact ⟨_, rfl⟩

namespace BreakdownPlan

variable {plan : BreakdownPlan}

/-! ## §1 The statement -/

/-- The order of the statement looks at labels, so no two groups are equal in it. -/
theorem exists_label_mem_order (plan : BreakdownPlan) : ∃ o ∈ plan.order, o.column = "group_key" := by
  unfold order
  split
  · exact ⟨_, List.mem_cons_of_mem _ (List.mem_cons_self ..), rfl⟩
  · by_cases hlabel : plan.spec.rankBy = .group
    · refine ⟨_, List.mem_cons_self .., ?_⟩
      rw [hlabel]
      rfl
    · rw [if_neg hlabel]
      exact ⟨_, List.mem_cons_of_mem _ (List.mem_cons_self ..), rfl⟩

/-- A query binds a snapshot of the table of a plan. -/
def Binds (plan : BreakdownPlan) (q : Query) (snapshot : Date) : Prop :=
  (Parameter.find? "snapshot" q.parameters).map (·.value) =
    some (plan.table.encoding.encode snapshot)

/-- The statement for a snapshot binds it, before the values of all filters. -/
theorem binds_select (plan : BreakdownPlan) (snapshot : Date) :
    plan.Binds (plan.select snapshot).query snapshot := by
  -- The condition on the snapshot stands in front of those of the filters.
  obtain ⟨rest, hrest⟩ := Fragment.exists_joined_cons " AND "
    (plan.table.dateCondition "=" "snapshot" snapshot) plan.predicate.conditions
  have hfiltered : Select.filtered (plan.select snapshot).conditions =
      .text " WHERE " :: (plan.table.dateCondition "=" "snapshot" snapshot ++ rest) := by
    rw [← hrest]
    rfl
  simp only [Binds, Select.query, Select.fragment, hfiltered]
  rfl

/-! ## §2 Answers -/

/-- A record holds the figures of a group: its label, its value and its results in their columns. -/
structure Holds (plan : BreakdownPlan) (record : Record) (g : GroupValues Binary64) : Prop where
  group : (Keyed.find? "group_key" record).map Cell.label = some g.group
  value : (Keyed.find? "value" record).map Cell.figure = some g.value
  length : g.results.length = plan.spec.results.length
  results : ∀ i < plan.spec.results.length,
    (Keyed.find? s!"result{i + 1}" record).map Cell.figure = some (g.slot i)

/-- Answers of a warehouse that holds groups for each snapshot: the statement of a plan is answered with
records of the groups of the snapshot that it binds, in its order and cut at its limit. -/
def AnsweredFrom (plan : BreakdownPlan) (labels : String → String → Ordering)
    (answer : Query → Except QueryError QueryResult) (data : Date → List (GroupValues Binary64)) :
    Prop :=
  ∀ snapshot bound, plan.Binds (plan.select snapshot).query bound →
    ∃ r, answer (plan.select snapshot).query = .ok r ∧
      List.Forall₂ plan.Holds r.records ((plan.select snapshot).listing labels (data bound))

/-- A group is read from a record that holds it. -/
theorem Holds.eq {record : Record} {g : GroupValues Binary64} (h : plan.Holds record g) :
    (⟨labelOf record "group_key", figureOf record "value",
      plan.spec.results.mapIdx fun i _ => figureOf record s!"result{i + 1}"⟩ : GroupValues Binary64) =
      g := by
  have hresults : (plan.spec.results.mapIdx fun i _ => figureOf record s!"result{i + 1}") =
      g.results := by
    apply List.ext_getElem
    · rw [List.length_mapIdx, h.length]
    · intro i hi hi'
      rw [List.length_mapIdx] at hi
      rw [List.getElem_mapIdx, figureOf, h.results i hi]
      simp [GroupValues.slot, hi']
  rw [labelOf, h.group, figureOf, h.value, hresults]
  rfl

/-- The groups of an answer are the groups that its records hold. -/
theorem groups_eq {r : QueryResult} {listed : List (GroupValues Binary64)}
    (h : List.Forall₂ plan.Holds r.records listed) : plan.groups r = listed := by
  rw [groups, ← List.forall₂_eq_eq_eq, List.forall₂_map_left_iff]
  exact h.imp fun _ _ hrecord => hrecord.eq

end BreakdownPlan

/-! ## §3 Rows -/

namespace Breakdown

variable {α : Type} [Amount α] {spec : BreakdownSpec} {current previous : List (GroupValues α)}
  {row : BreakdownRow α}

/-- A row of its own shows a group. -/
theorem shows_of_mem_rows (hprevious : (previous.map (·.group)).Nodup)
    (h : row ∈ rows spec current previous) (hown : row.isOthers = false) :
    ∃ g ∈ current, row.Shows g previous := by
  rcases of_mem_rows h with ⟨g, hg, rfl⟩ | ⟨g, -, rfl⟩
  · exact ⟨g, hg, shows_ofGroup _ g hprevious⟩
  · cases hown

/-- The share of every row is that in the sum of all current groups. -/
theorem percentage_of_mem_rows (h : row ∈ rows spec current previous) :
    row.percentageOfTotal =
      Amount.percentage row.figures.current (Amount.sum (current.map (·.value))) := by
  rcases of_mem_rows h with ⟨g, _, rfl⟩ | ⟨g, _, rfl⟩ <;> rfl

end Breakdown

/-! ## §4 Rows beside listed groups -/

namespace BreakdownRow.Shows

variable {labels : String → String → Ordering} {s : Select} {groups : List (GroupValues Binary64)}
  {n : Nat} {row : BreakdownRow Binary64} {g p : GroupValues Binary64}

/-- The earlier value of a row is zero if there was no such group. -/
theorem previous_of_absent (h : row.Shows g (s.listing labels groups))
    (hnone : ∀ p ∈ groups, p.group ≠ row.group) : row.figures.previous = Amount.zero := by
  apply (h.absent _).1
  intro p hp
  rw [← h.group]
  exact hnone p (Select.mem_of_mem_listing hp)

/-- The earlier value of a row is that of its group if the group was listed, and zero otherwise. -/
theorem previous_eq [Std.TransCmp labels] [Std.LawfulEqCmp labels]
    (h : row.Shows g (s.listing labels groups)) (hlimit : s.limit = some n)
    (hlabels : ∃ o ∈ s.order, o.column = "group_key") (hgroups : (groups.map (·.group)).Nodup)
    (hp : p ∈ groups) (hrow : p.group = row.group) :
    row.figures.previous = if s.placeOf labels groups p < n then p.value else Amount.zero := by
  have hlisted : p ∈ s.listing labels groups ↔ s.placeOf labels groups p < n :=
    Select.mem_listing_iff hlimit hlabels hgroups hp
  rw [h.group] at hrow
  split
  · rename_i hplace
    exact (h.present p (hlisted.mpr hplace) hrow).1
  · rename_i hplace
    apply (h.absent _).1
    -- A listed group with the label of the row would be the group itself.
    intro q hq hqrow
    have hsame : q = p :=
      List.inj_on_of_nodup_map hgroups (Select.mem_of_mem_listing hq) hp (hqrow.trans hrow.symm)
    exact hplace (hlisted.mp (hsame ▸ hq))

end BreakdownRow.Shows

end SnapshotAnalytics

import SnapshotAnalytics.Proofs.Report.Plans

/-!
# Weights of averages

The expression of a weighted average names the field of the weights twice. Two averages of the same
field with different weights are different expressions, so from the expression of a checked average one
sees that it is weighted by the field that was asked for.
-/

namespace SnapshotAnalytics.Measure

/-- The average of the field of a measure, weighted by the given field. -/
def weightedBy (m : Measure) (weight : String) : String :=
  s!"ifNull(sum({numeric m.field} * {numeric weight}) / nullIf(sum({numeric weight}), 0), 0)"

theorem numeric_eq (field : String) :
    numeric field = "toFloat64OrZero(toString(" ++ field ++ "))" :=
  rfl

theorem weightedBy_eq (m : Measure) (weight : String) :
    m.weightedBy weight = "ifNull(sum(" ++ numeric m.field ++ " * " ++ numeric weight ++
      ") / nullIf(sum(" ++ numeric weight ++ "), 0), 0)" :=
  rfl

/-- What stands before the first weight, between the two, and behind the second one, is the same for
all weights. -/
theorem exists_toList_weightedBy (m : Measure) :
    ∃ front between back : List Char, ∀ weight : String, (m.weightedBy weight).toList =
      front ++ (weight.toList ++ (between ++ (weight.toList ++ back))) := by
  refine ⟨("ifNull(sum(" ++ numeric m.field ++ " * " ++ "toFloat64OrZero(toString(").toList,
    ("))" ++ ") / nullIf(sum(" ++ "toFloat64OrZero(toString(").toList,
    ("))" ++ "), 0), 0)").toList, fun weight => ?_⟩
  rw [weightedBy_eq, numeric_eq weight]
  simp only [String.toList_append, List.append_assoc]

/-- The weight can be told from the expression. -/
theorem weightedBy_injective (m : Measure) : Function.Injective m.weightedBy := by
  intro weight weight' h
  obtain ⟨front, between, back, htext⟩ := m.exists_toList_weightedBy
  have hchars := congrArg String.toList h
  rw [htext, htext] at hchars
  -- The two texts have the same length, and so have the weights, which both of them name twice.
  have hlength : weight.toList.length = weight'.toList.length := by
    have hlengths := congrArg List.length hchars
    simp only [List.length_append] at hlengths
    omega
  exact String.toList_injective (List.append_inj_left (List.append_cancel_left hchars) hlength)

/-- A measure is rendered with weights of a declared field, if it has any. -/
def RendersWeight (m : Measure) (t : TableSchema) : Prop :=
  m.aggregation = .weightedAvg → ∃ weight, m.weight = some weight ∧ t.require weight = .ok () ∧
    m.sql = m.weightedBy weight ∧ (weight ≠ m.field → m.sql ≠ m.weightedBy m.field)

theorem rendersWeight {m : Measure} {t : TableSchema} (h : m.check t = .ok ()) :
    m.RendersWeight t := by
  intro haggregation
  obtain ⟨weight, hweight, hdeclared⟩ := (declared h).2 haggregation
  have hsql : m.sql = m.weightedBy weight := by
    simp only [sql, haggregation, hweight, Option.getD_some]
    rfl
  refine ⟨weight, hweight, hdeclared, hsql, fun hne hsame => hne ?_⟩
  exact m.weightedBy_injective (hsql.symm.trans hsame)

end SnapshotAnalytics.Measure

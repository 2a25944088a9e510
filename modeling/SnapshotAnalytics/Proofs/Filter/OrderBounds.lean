import SnapshotAnalytics.Filter.Predicate
import SnapshotAnalytics.Proofs.Data.Checks

/-!
# Bounds of an order

An operator that compares by order has a symbol, and a filter that is compiled has a first value. So
neither the symbol nor the clause that stands in for a missing one is ever used: a compiled filter by
order is the comparison of its field with its first value.
-/

namespace SnapshotAnalytics

open Checks

/-- The operators that compare by order. -/
def Operator.ordering : List Operator :=
  [.lessThan, .greaterThan, .lessOrEqual, .greaterOrEqual]

/-- A filter at its place is compiled to the comparison of its field with its first value, in the form
in which values of the field are bound, by the symbol of its operator. -/
def Filter.IsBoundIn (predicate : Predicate) (t : TableSchema) (place : Nat) (f : Filter) : Prop :=
  ∃ symbol first rest kind normal, f.operator.orderSymbol? = some symbol ∧
    f.values = first :: rest ∧ t.kindOf f.field = .ok kind ∧
    Predicate.normalize kind f.field first = .ok normal ∧
    Clause.comparison f.field symbol
      ⟨Predicate.parameterName place 0, kind.parameterType, normal⟩ ∈ predicate

theorem Filter.IsBoundIn.cons {predicate : Predicate} {t : TableSchema} {place : Nat} {f : Filter}
    (h : f.IsBoundIn predicate t place) (c : Clause) : f.IsBoundIn (c :: predicate) t place := by
  obtain ⟨symbol, first, rest, kind, normal, hsymbol, hvalues, hkind, hnormal, hmem⟩ := h
  exact ⟨symbol, first, rest, kind, normal, hsymbol, hvalues, hkind, hnormal,
    List.mem_cons_of_mem c hmem⟩

namespace Predicate

/-- The clause of a filter by order. -/
theorem clause_of_ordering {place : Nat} {kind : FieldKind} {f : Filter} {c : Clause} {first : String}
    {rest : List String} (h : clause place kind f = .ok c) (hvalues : f.values = first :: rest)
    (hordering : f.operator ∈ Operator.ordering) :
    ∃ symbol normal, f.operator.orderSymbol? = some symbol ∧
      normalize kind f.field first = .ok normal ∧
      c = .comparison f.field symbol ⟨parameterName place 0, kind.parameterType, normal⟩ := by
  have hcases : f.operator = .lessThan ∨ f.operator = .greaterThan ∨ f.operator = .lessOrEqual ∨
      f.operator = .greaterOrEqual := by
    simpa [Operator.ordering] using hordering
  -- All four operators are compiled by the same branch, each with a symbol of its own.
  rcases hcases with hoperator | hoperator | hoperator | hoperator
  all_goals
    simp only [clause, hoperator, hvalues, List.take_succ_cons, List.take_zero, bind,
      Checks.bind_eq_ok, pure_eq_ok, Except.ok.injEq] at h
    obtain ⟨_, ⟨normal, hnormal, _, rfl, rfl⟩, h⟩ := h
    cases h
    rw [hoperator]
    exact ⟨_, normal, rfl, hnormal, rfl⟩

/-- **Orders have bounds**: a filter by order that has values is compiled to a comparison with the first
of them. Each filter that has values is compiled to one clause, and no other filter is. -/
theorem isBoundIn_of_compileFrom {t : TableSchema} {start : Nat} {filters : List Filter}
    {predicate : Predicate} (h : compileFrom t start filters = .ok predicate) :
    predicate.length = filters.countP (fun f => !f.values.isEmpty) ∧
      ∀ (i : Nat) (f : Filter), filters[i]? = some f → f.values ≠ [] → f.operator ∈ Operator.ordering →
        f.IsBoundIn predicate t (start + i) := by
  induction filters generalizing start predicate with
  | nil =>
    cases h
    exact ⟨rfl, fun i f hf => by simp at hf⟩
  | cons g filters ih =>
    unfold compileFrom at h
    split at h
    case isTrue hempty =>
      -- A filter without values is left out, but it still takes a place.
      obtain ⟨hlength, hbound⟩ := ih h
      refine ⟨by simpa [hempty] using hlength, fun i f hf hne hordering => ?_⟩
      cases i with
      | zero =>
        obtain rfl : g = f := by simpa using hf
        exact absurd (List.isEmpty_iff.mp hempty) hne
      | succ i =>
        have hplace := hbound i f (by simpa using hf) hne hordering
        rwa [Nat.add_right_comm] at hplace
    case isFalse hfilled =>
      simp only [Checks.bind_eq_ok, pure_eq_ok] at h
      obtain ⟨kind, hkind, c, hc, rest, hrest, rfl⟩ := h
      -- The clause of the first filter stands in front of all others.
      obtain ⟨hlength, hbound⟩ := ih hrest
      refine ⟨by simp [hlength, hfilled], fun i f hf hne hordering => ?_⟩
      cases i with
      | zero =>
        obtain rfl : g = f := by simpa using hf
        obtain ⟨first, values, hvalues⟩ := List.exists_cons_of_ne_nil hne
        obtain ⟨symbol, normal, hsymbol, hnormal, rfl⟩ := clause_of_ordering hc hvalues hordering
        exact ⟨symbol, first, values, kind, normal, hsymbol, hvalues, hkind, hnormal,
          List.mem_cons_self⟩
      | succ i =>
        have hplace := hbound i f (by simpa using hf) hne hordering
        rw [Nat.add_right_comm] at hplace
        exact hplace.cons c

end Predicate

end SnapshotAnalytics

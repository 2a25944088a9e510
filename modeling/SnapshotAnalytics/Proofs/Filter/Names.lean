import Mathlib.Data.List.Nodup
import SnapshotAnalytics.Proofs.Filter.Blanks
import SnapshotAnalytics.Proofs.Filter.Predicate

/-!
# Names of bound values

The name of a bound value tells the places of its filter and of the value within the filter. So no two
values of a predicate are bound to the same name, however many filters there are and whichever of them
are passed over, and none is bound to a name that does not start like these.
-/

namespace SnapshotAnalytics

open Checks

/-! ## §1 Parameters of clauses -/

/-- The parameters of a clause, from left to right. -/
def Clause.parameters : Clause → List Parameter
  | comparison _ _ value => [value]
  | membership _ _ values => values
  | substring _ _ _ patterns => patterns

theorem Clause.parameters_fragment (c : Clause) : c.fragment.parameters = c.parameters := by
  cases c with
  | comparison field symbol value => rfl
  | membership field negated values =>
    simp [fragment, parameters, List.flatMap_map]
  | substring target negated anyOf patterns =>
    -- A single pattern stands without parentheses.
    rcases patterns with _ | ⟨p, _ | ⟨q, patterns⟩⟩
    · rfl
    · rfl
    · simp [fragment, parameters, List.flatMap_map]

namespace Predicate

theorem parameters_conditions (p : Predicate) :
    p.conditions.flatMap Fragment.parameters = p.flatMap Clause.parameters := by
  cases p with
  | nil => rfl
  | cons c p => simp [conditions, Predicate.fragment, List.flatMap_map, Clause.parameters_fragment]

/-! ## §2 Names of places -/

/-- A name determines the places that it was made from. -/
theorem parameterName_inj {filter filter' value value' : Nat}
    (h : parameterName filter value = parameterName filter' value') :
    filter = filter' ∧ value = value' := by
  have hunderscore (n : Nat) : '_' ∉ (toString n).toList :=
    fun hc => absurd (isDigit_toString n _ hc) (by decide)
  rw [← String.toList_inj, toList_parameterName, toList_parameterName] at h
  -- The underscore behind the place of the filter is the only one.
  obtain ⟨hfilter, _, hvalue⟩ :=
    (List.append_cons_inj_of_notMem (hunderscore _) (hunderscore _)).mp (List.cons.inj h).2
  exact ⟨eq_of_toString_eq hfilter, eq_of_toString_eq hvalue⟩

theorem names_bind {filter next : Nat} {kind : FieldKind} {field : String} {values : List String}
    {ps : List Parameter} (h : bind filter kind field next values = .ok ps) :
    ps.map Parameter.name = (List.range' next values.length).map (parameterName filter) := by
  have hblank := congrArg (List.map Parameter.name) (blank_bind h)
  rw [List.map_map, List.map_map] at hblank
  exact hblank

theorem names_bindPatterns (filter : Nat) (values : List String) :
    (bindPatterns filter values).map Parameter.name =
      (List.range values.length).map (parameterName filter) := by
  have hblank := congrArg (List.map Parameter.name) (blank_bindPatterns filter values)
  rw [List.map_map, List.map_map] at hblank
  exact hblank

theorem parameters_equality (field : String) (negated : Bool) (values : List Parameter) :
    (equality field negated values).parameters = values := by
  rcases values with _ | ⟨p, _ | ⟨q, values⟩⟩ <;> rfl

/-- The values of a clause are bound to the names of their places, from the first on. -/
theorem names_clause {place : Nat} {kind : FieldKind} {f : Filter} {c : Clause}
    (h : clause place kind f = .ok c) :
    ∃ n, c.parameters.map Parameter.name = (List.range n).map (parameterName place) := by
  have hnames {values : List String} {ps : List Parameter}
      (hps : bind place kind f.field 0 values = .ok ps) :
      ∃ n, ps.map Parameter.name = (List.range n).map (parameterName place) :=
    ⟨values.length, by rw [List.range_eq_range', names_bind hps]⟩
  unfold clause at h
  cases hoperator : f.operator <;>
    simp only [hoperator, Checks.bind_eq_ok, pure_eq_ok, Except.ok.injEq] at h
  case equals | unrecognized | notEquals =>
    obtain ⟨ps, hps, rfl⟩ := h
    rw [parameters_equality]
    exact hnames hps
  case oneOf =>
    obtain ⟨ps, hps, rfl⟩ := h
    exact hnames hps
  case contains | allOf | notContains | noneOf | anyOf =>
    rw [← h]
    exact ⟨_, names_bindPatterns place f.values⟩
  case lessThan | greaterThan | lessOrEqual | greaterOrEqual =>
    -- An order takes the first value only, if there is one.
    obtain ⟨ps, hps, h⟩ := h
    cases ps with
    | nil =>
      cases h
      exact ⟨0, rfl⟩
    | cons p ps =>
      cases h
      obtain ⟨n, hn⟩ := hnames hps
      cases n with
      | zero => cases hn
      | succ n =>
        rw [List.range_succ_eq_map] at hn
        exact ⟨1, congrArg ([·]) (List.cons.inj hn).1⟩

/-! ## §3 Names of predicates -/

/-- The names that a predicate binds, from left to right. -/
def names (p : Predicate) : List String :=
  (p.flatMap Clause.parameters).map Parameter.name

theorem names_cons (c : Clause) (p : Predicate) :
    names (c :: p) = c.parameters.map Parameter.name ++ names p := by
  rw [names, List.flatMap_cons, List.map_append, names]

/-- Values are bound to names of places from the first filter on, all of them different. -/
theorem names_compileFrom {t : TableSchema} {place : Nat} {filters : List Filter} {p : Predicate}
    (h : compileFrom t place filters = .ok p) :
    (∀ name ∈ p.names, ∃ filter ≥ place, ∃ value, name = parameterName filter value) ∧
      p.names.Nodup := by
  induction filters generalizing place p with
  | nil =>
    cases h
    exact ⟨List.forall_mem_nil _, List.nodup_nil⟩
  | cons f filters ih =>
    unfold compileFrom at h
    split at h
    · -- A filter that is passed over leaves a gap among the places.
      obtain ⟨hplaces, hnodup⟩ := ih h
      refine ⟨fun name hname => ?_, hnodup⟩
      obtain ⟨filter, hfilter, value, rfl⟩ := hplaces name hname
      exact ⟨filter, Nat.le_of_succ_le hfilter, value, rfl⟩
    · simp only [Checks.bind_eq_ok, pure_eq_ok] at h
      obtain ⟨kind, _, c, hc, rest, hrest, rfl⟩ := h
      obtain ⟨hplaces, hnodup⟩ := ih hrest
      obtain ⟨n, hn⟩ := names_clause hc
      rw [names_cons, hn]
      constructor
      · intro name hname
        rcases List.mem_append.mp hname with hfirst | hname
        · obtain ⟨value, _, rfl⟩ := List.mem_map.mp hfirst
          exact ⟨place, Nat.le_refl _, value, rfl⟩
        · obtain ⟨filter, hfilter, value, rfl⟩ := hplaces name hname
          exact ⟨filter, Nat.le_of_succ_le hfilter, value, rfl⟩
      · refine List.nodup_append.mpr ⟨?_, hnodup, ?_⟩
        · exact List.Nodup.map (fun _ _ h => (parameterName_inj h).2) List.nodup_range
        · intro name hfirst other hother
          obtain ⟨value, _, rfl⟩ := List.mem_map.mp hfirst
          obtain ⟨filter, hfilter, value', rfl⟩ := hplaces other hother
          intro hsame
          exact absurd ((parameterName_inj hsame).1 ▸ hfilter) (Nat.not_succ_le_self _)

/-- **No name is bound twice** by compiled filters and by names that do not start as theirs do. -/
theorem nodup_names {t : TableSchema} {filters : List Filter} {p : Predicate}
    (h : compile t filters = .ok p) {others : List String} (hothers : others.Nodup)
    (hstart : ∀ name ∈ others, name.toList.head? ≠ some 'p') : (others ++ p.names).Nodup := by
  obtain ⟨hplaces, hnodup⟩ := names_compileFrom h
  refine List.nodup_append.mpr ⟨hothers, hnodup, ?_⟩
  intro name hname other hother hsame
  obtain ⟨filter, _, value, rfl⟩ := hplaces other hother
  refine hstart name hname ?_
  rw [hsame, toList_parameterName, List.head?_cons]

end Predicate

end SnapshotAnalytics

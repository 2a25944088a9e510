import SnapshotAnalytics.Filter.Predicate
import SnapshotAnalytics.Proofs.Data.Checks
import SnapshotAnalytics.Proofs.Query.Blanks

/-!
# Predicates without their values

Filters that compare the same fields in the same ways with as many values are compiled to the same
predicate, apart from the values that it binds. What the values are, and how an operator that is not
recognised is spelled, makes no difference to the clauses.
-/

namespace SnapshotAnalytics

open Checks

/-! ## §1 Blanked filters -/

/-- An operator without the spelling of one that is not recognised. -/
def Operator.blank : Operator → Operator
  | .unrecognized _ => .unrecognized ""
  | o => o

/-- A filter with as many values, all of them empty, and without the spelling of an operator that is
not recognised. -/
def Filter.blank (f : Filter) : Filter :=
  ⟨f.field, f.operator.blank, f.values.map fun _ => ""⟩

theorem Filter.blank_eq {f f' : Filter} (h : f.blank = f'.blank) :
    f.field = f'.field ∧ f.operator.blank = f'.operator.blank ∧
      f.values.length = f'.values.length := by
  simp only [blank, Filter.mk.injEq] at h
  obtain ⟨hfield, hoperator, hvalues⟩ := h
  have hlength := congrArg List.length hvalues
  rw [List.length_map, List.length_map] at hlength
  exact ⟨hfield, hoperator, hlength⟩

/-! ## §2 Blanked clauses -/

namespace Clause

/-- A clause with empty values. -/
def blank : Clause → Clause
  | comparison field symbol value => comparison field symbol value.blank
  | membership field negated values => membership field negated (values.map Parameter.blank)
  | substring target negated anyOf patterns =>
    substring target negated anyOf (patterns.map Parameter.blank)

theorem blank_fragment (c : Clause) : c.fragment.blank = c.blank.fragment := by
  cases c with
  | comparison field symbol value => rfl
  | membership field negated values =>
    simp [fragment, blank, Function.comp_def]
  | substring target negated anyOf patterns =>
    -- A single pattern stands without parentheses, with a value or without one.
    rcases patterns with _ | ⟨p, _ | ⟨q, patterns⟩⟩
    · rfl
    · rfl
    · simp [fragment, blank, Function.comp_def]

end Clause

namespace Predicate

/-- A predicate with empty values. -/
def blank (p : Predicate) : Predicate :=
  p.map Clause.blank

theorem blank_conditions (p : Predicate) :
    p.conditions.map Fragment.blank = p.blank.conditions := by
  cases p with
  | nil => rfl
  | cons c p =>
    simp [conditions, blank, Predicate.fragment, Clause.blank_fragment, Function.comp_def]

/-! ## §3 Bound values -/

/-- The parameter of a value by its place, the value left empty. -/
def slot (filter : Nat) (type : ParameterType) (i : Nat) : Parameter :=
  ⟨parameterName filter i, type, ""⟩

/-- Values that were bound have the names of their places, one after the other, and the type of the
field. -/
theorem blank_bind {filter next : Nat} {kind : FieldKind} {field : String} {values : List String}
    {ps : List Parameter} (h : bind filter kind field next values = .ok ps) :
    ps.map Parameter.blank =
      (List.range' next values.length).map (slot filter kind.parameterType) := by
  induction values generalizing next ps with
  | nil =>
    cases h
    rfl
  | cons value values ih =>
    simp only [bind, Checks.bind_eq_ok, pure_eq_ok] at h
    obtain ⟨normal, _, rest, hrest, rfl⟩ := h
    rw [List.map_cons, ih hrest, List.length_cons, List.range'_succ, List.map_cons]
    rfl

theorem blank_bindPatterns (filter : Nat) (values : List String) :
    (bindPatterns filter values).map Parameter.blank =
      (List.range values.length).map (slot filter .string) := by
  apply List.ext_getElem?
  intro i
  by_cases hi : i < values.length
  · simp [bindPatterns, slot, Parameter.blank, hi]
  · simp [bindPatterns, hi]

/-! ## §4 Compiled filters -/

theorem blank_equality (field : String) (negated : Bool) (ps : List Parameter) :
    (equality field negated ps).blank = equality field negated (ps.map Parameter.blank) := by
  rcases ps with _ | ⟨p, _ | ⟨q, ps⟩⟩ <;> rfl

/-- How an operator that is not recognised is spelled makes no difference to a clause. -/
theorem clause_blank_operator (place : Nat) (kind : FieldKind) (f : Filter) :
    clause place kind { f with operator := f.operator.blank } = clause place kind f := by
  obtain ⟨field, operator, values⟩ := f
  cases operator <;> rfl

/-- Filters with the same field, operator and number of values have the same clause apart from the
values it binds. -/
theorem blank_clause_eq {place : Nat} {kind : FieldKind} {field : String} {operator : Operator}
    {values values' : List String} (hlength : values.length = values'.length) {c c' : Clause}
    (h : clause place kind ⟨field, operator, values⟩ = .ok c)
    (h' : clause place kind ⟨field, operator, values'⟩ = .ok c') : c.blank = c'.blank := by
  have hbound {vs vs' : List String} (hvs : vs.length = vs'.length) {ps ps' : List Parameter}
      (hps : bind place kind field 0 vs = .ok ps) (hps' : bind place kind field 0 vs' = .ok ps') :
      ps.map Parameter.blank = ps'.map Parameter.blank := by
    rw [blank_bind hps, blank_bind hps', hvs]
  have hpatterns : (bindPatterns place values).map Parameter.blank =
      (bindPatterns place values').map Parameter.blank := by
    rw [blank_bindPatterns, blank_bindPatterns, hlength]
  -- A comparison by order binds the first value only.
  have hfirst : (values.take 1).length = (values'.take 1).length := by
    rw [List.length_take, List.length_take, hlength]
  unfold clause at h h'
  cases operator <;> simp only [Checks.bind_eq_ok, pure_eq_ok, Except.ok.injEq] at h h'
  case equals | unrecognized | notEquals =>
    obtain ⟨ps, hps, rfl⟩ := h
    obtain ⟨ps', hps', rfl⟩ := h'
    rw [blank_equality, blank_equality, hbound hlength hps hps']
  case oneOf =>
    obtain ⟨ps, hps, rfl⟩ := h
    obtain ⟨ps', hps', rfl⟩ := h'
    rw [Clause.blank, Clause.blank, hbound hlength hps hps']
  case contains | allOf | notContains | noneOf | anyOf =>
    rw [← h, ← h', Clause.blank, Clause.blank, hpatterns]
  case lessThan | greaterThan | lessOrEqual | greaterOrEqual =>
    obtain ⟨ps, hps, h⟩ := h
    obtain ⟨ps', hps', h'⟩ := h'
    have hblank := hbound hfirst hps hps'
    -- Either both filters have a first value or neither has.
    cases ps with
    | nil =>
      cases ps' with
      | nil =>
        cases h
        cases h'
        rfl
      | cons p' ps' => cases hblank
    | cons p ps =>
      cases ps' with
      | nil => cases hblank
      | cons p' ps' =>
        cases h
        cases h'
        rw [Clause.blank, Clause.blank, (List.cons.inj hblank).1]

/-- **Values make no difference to compiled filters**, apart from being bound: filters that are the
same once they are blanked out are compiled to predicates that are. -/
theorem blank_compileFrom_eq {t : TableSchema} {filters filters' : List Filter}
    (hfilters : filters.map Filter.blank = filters'.map Filter.blank) {place : Nat}
    {p p' : Predicate} (h : compileFrom t place filters = .ok p)
    (h' : compileFrom t place filters' = .ok p') : p.blank = p'.blank := by
  induction filters generalizing filters' place p p' with
  | nil =>
    rw [List.map_nil, eq_comm, List.map_eq_nil_iff] at hfilters
    subst hfilters
    cases h
    cases h'
    rfl
  | cons f filters ih =>
    cases filters' with
    | nil => cases hfilters
    | cons f' filters' =>
      obtain ⟨hfirst, hrest⟩ := List.cons.inj hfilters
      obtain ⟨hfield, hoperator, hlength⟩ := Filter.blank_eq hfirst
      have hempty : f.values.isEmpty = f'.values.isEmpty := by
        rw [Bool.eq_iff_iff, List.isEmpty_iff_length_eq_zero, List.isEmpty_iff_length_eq_zero,
          hlength]
      unfold compileFrom at h h'
      rw [← hempty] at h'
      split at h
      · -- Both filters ask for nothing and only take up their places.
        rename_i hnone
        rw [if_pos hnone] at h'
        exact ih hrest h h'
      · rename_i hsome
        rw [if_neg hsome] at h'
        simp only [Checks.bind_eq_ok, pure_eq_ok] at h h'
        obtain ⟨kind, hkind, c, hc, rest, hp, rfl⟩ := h
        obtain ⟨kind', hkind', c', hc', rest', hp', rfl⟩ := h'
        rw [← hfield, hkind, Except.ok.injEq] at hkind'
        subst hkind'
        rw [← clause_blank_operator] at hc hc'
        rw [← hfield, ← hoperator] at hc'
        have hclause := blank_clause_eq hlength hc hc'
        rw [blank, blank, List.map_cons, List.map_cons, hclause]
        exact congrArg _ (ih hrest hp hp')

end Predicate

end SnapshotAnalytics

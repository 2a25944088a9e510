import SnapshotAnalytics.Filter.Predicate
import SnapshotAnalytics.Proofs.Data.Checks
import SnapshotAnalytics.Proofs.Query.Selections

/-!
# Compiled predicates in the words of a table

Whatever the operators and the values of filters are, what they are compiled to is written in the
words of the table: the fields are declared, and the values are bound to names that are made from
places only.
-/

namespace SnapshotAnalytics

open Checks Text

variable {t : TableSchema}

/-! ## §1 Written clauses -/

namespace Clause

/-- A clause on an expression in the words of a table, whose values have names. -/
def IsWritten (t : TableSchema) : Clause → Prop
  | comparison field symbol value =>
    t.IsPhrase field ∧ t.IsPhrase symbol ∧ Parameter.isName value.name = true
  | membership field _ values => t.IsPhrase field ∧ ∀ p ∈ values, Parameter.isName p.name = true
  | substring target _ _ patterns =>
    t.IsPhrase target ∧ ∀ p ∈ patterns, Parameter.isName p.name = true

theorem isWritten_fragment {c : Clause} (hc : c.IsWritten t) : c.fragment.IsWritten t := by
  cases c with
  | comparison field symbol value =>
    obtain ⟨hfield, hsymbol, hvalue⟩ := hc
    exact .comparison hfield hsymbol hvalue
  | membership field negated values =>
    obtain ⟨hfield, hvalues⟩ := hc
    have hopening : separates (if negated then " NOT IN (" else " IN (") = true := by
      cases negated <;> decide
    have hlisted : ∀ f ∈ values.map fun value => [Piece.parameter value],
        Fragment.IsWritten t f := by
      intro f hf
      obtain ⟨value, hvalue, rfl⟩ := List.mem_map.mp hf
      exact .parameter (hvalues value hvalue)
    exact (Fragment.IsWritten.introduced hfield hopening (.joined (by decide) hlisted)).closed
      (by decide)
  | substring target negated anyOf patterns =>
    obtain ⟨htarget, hpatterns⟩ := hc
    have hsymbol : t.IsPhrase (if negated then "NOT ILIKE" else "ILIKE") :=
      .of_isFixed (by cases negated <;> decide)
    have hbetween : separates (if anyOf then " OR " else " AND ") = true := by
      cases anyOf <;> decide
    have hparts : ∀ part ∈ patterns.map
        (Fragment.comparison target (if negated then "NOT ILIKE" else "ILIKE")),
        part.IsWritten t := by
      intro part hpart
      obtain ⟨p, hp, rfl⟩ := List.mem_map.mp hpart
      exact .comparison htarget hsymbol (hpatterns p hp)
    -- A single part stands for itself, all other lists of parts are joined in parentheses.
    rw [fragment]
    split
    · rename_i part hpart
      exact hparts part (hpart ▸ List.mem_singleton.mpr rfl)
    · exact (Fragment.IsWritten.joined hbetween hparts).parenthesized

end Clause

namespace Predicate

/-! ## §2 Bound values -/

/-- A letter, digits, an underscore and digits. -/
theorem toList_parameterName (filter value : Nat) : (parameterName filter value).toList =
    'p' :: ((toString filter).toList ++ '_' :: (toString value).toList) := by
  simp [parameterName, toString]

theorem isName_parameterName (filter value : Nat) :
    Parameter.isName (parameterName filter value) = true := by
  have hdigits (n : Nat) : (toString n).toList.all Parameter.isNameChar = true :=
    List.all_eq_true.mpr (isIdentifierPart_toString n)
  have hnonempty : (parameterName filter value).isEmpty = false := by
    rw [Bool.eq_false_iff, ne_eq, String.isEmpty_iff, ← String.toList_inj, toList_parameterName]
    exact List.cons_ne_nil 'p' _
  rw [Parameter.isName, hnonempty, toList_parameterName, List.all_cons, List.all_append,
    List.all_cons, hdigits, hdigits]
  decide

/-- Values are bound to names made from their places. -/
theorem bind_eq_ok {filter next : Nat} {kind : FieldKind} {field : String} {values : List String}
    {ps : List Parameter} (h : bind filter kind field next values = .ok ps) :
    ∀ p ∈ ps, ∃ i, p.name = parameterName filter i := by
  induction values generalizing next ps with
  | nil =>
    cases h
    exact fun _ hp => nomatch hp
  | cons value values ih =>
    simp only [bind, Checks.bind_eq_ok, pure_eq_ok] at h
    obtain ⟨normal, _, rest, hrest, rfl⟩ := h
    exact List.forall_mem_cons.mpr ⟨⟨next, rfl⟩, ih hrest⟩

theorem isName_of_bind {filter next : Nat} {kind : FieldKind} {field : String}
    {values : List String} {ps : List Parameter} (h : bind filter kind field next values = .ok ps) :
    ∀ p ∈ ps, Parameter.isName p.name = true := by
  intro p hp
  obtain ⟨i, hname⟩ := bind_eq_ok h p hp
  rw [hname]
  exact isName_parameterName filter i

theorem isName_bindPatterns {filter : Nat} {values : List String} :
    ∀ p ∈ bindPatterns filter values, Parameter.isName p.name = true := by
  intro p hp
  obtain ⟨i, _, rfl⟩ := List.mem_mapIdx.mp hp
  exact isName_parameterName filter i

/-! ## §3 Compiled clauses -/

theorem isWritten_equality {field : String} (hfield : t.IsPhrase field) (negated : Bool)
    {ps : List Parameter} (hps : ∀ p ∈ ps, Parameter.isName p.name = true) :
    (equality field negated ps).IsWritten t := by
  unfold equality
  split
  · rename_i value
    exact ⟨hfield, .of_isFixed (by cases negated <;> decide), hps value (List.mem_singleton.mpr rfl)⟩
  · exact ⟨hfield, hps⟩

theorem isPhrase_target {field : String} (hfield : t.IsPhrase field) (kind : FieldKind) :
    t.IsPhrase (target kind field) := by
  have hcall : t.IsPhrase s!"toString({field})" := (hfield.opened (by decide)).closed (by decide)
  cases kind with
  | text => exact hfield
  | number => exact hcall
  | date => exact hcall

theorem isFixed_orderSymbol (o : Operator) : isFixed (o.orderSymbol?.getD "=") = true := by
  cases o with
  | unrecognized spelling => exact (by decide : isFixed "=" = true)
  | _ => decide

theorem isWritten_clause {place : Nat} {kind : FieldKind} {f : Filter} {c : Clause}
    (hfield : t.IsPhrase f.field) (h : clause place kind f = .ok c) : c.IsWritten t := by
  have htarget := isPhrase_target hfield kind
  have hsymbol : t.IsPhrase (f.operator.orderSymbol?.getD "=") :=
    .of_isFixed (isFixed_orderSymbol f.operator)
  unfold clause at h
  -- The operators that look for patterns cannot fail, all others bind values first.
  cases hoperator : f.operator <;>
    simp only [hoperator, Checks.bind_eq_ok, pure_eq_ok, Except.ok.injEq] at h hsymbol
  case equals | unrecognized | notEquals =>
    obtain ⟨ps, hps, rfl⟩ := h
    exact isWritten_equality hfield _ (isName_of_bind hps)
  case oneOf =>
    obtain ⟨ps, hps, rfl⟩ := h
    exact ⟨hfield, isName_of_bind hps⟩
  case contains | allOf | notContains | noneOf | anyOf =>
    rw [← h]
    exact ⟨htarget, isName_bindPatterns⟩
  case lessThan | greaterThan | lessOrEqual | greaterOrEqual =>
    obtain ⟨ps, hps, h⟩ := h
    have hnames := isName_of_bind hps
    cases ps with
    | nil =>
      cases h
      exact ⟨hfield, hnames⟩
    | cons p ps =>
      cases h
      exact ⟨hfield, hsymbol, hnames p (List.mem_cons_self ..)⟩

/-- **Compiled filters are written** in the words of a checked table. -/
theorem isWritten_of_compileFrom (ht : t.Checked) {place : Nat} {filters : List Filter}
    {predicate : Predicate} (h : compileFrom t place filters = .ok predicate) :
    ∀ c ∈ predicate, c.IsWritten t := by
  -- Filters without values are passed over before their field is looked at.
  induction filters generalizing place predicate with
  | nil =>
    cases h
    exact fun _ hc => nomatch hc
  | cons f filters ih =>
    unfold compileFrom at h
    split at h
    · exact ih h
    · simp only [Checks.bind_eq_ok, pure_eq_ok] at h
      obtain ⟨kind, hkind, first, hfirst, rest, hrest, rfl⟩ := h
      have hfield : t.IsPhrase f.field := .field ht (TableSchema.kindOf_eq_ok hkind)
      exact List.forall_mem_cons.mpr ⟨isWritten_clause hfield hfirst, ih hrest⟩

/-- The conditions that compiled filters add to a selection. -/
theorem isWritten_conditions (ht : t.Checked) {filters : List Filter} {predicate : Predicate}
    (h : compile t filters = .ok predicate) : ∀ f ∈ predicate.conditions, f.IsWritten t := by
  have hclauses : ∀ f ∈ predicate.map Clause.fragment, f.IsWritten t := by
    intro f hf
    obtain ⟨c, hc, rfl⟩ := List.mem_map.mp hf
    exact Clause.isWritten_fragment (isWritten_of_compileFrom ht h c hc)
  unfold conditions
  split
  · exact fun _ hf => nomatch hf
  · exact List.forall_mem_singleton.mpr
      (Fragment.IsWritten.joined (by decide) hclauses).parenthesized

end Predicate

end SnapshotAnalytics

import SnapshotAnalytics.Proofs.Filter.Names
import SnapshotAnalytics.Proofs.Query.Comparisons

/-!
# The meaning of filters

Filters are compiled to a condition that is true exactly when all of them hold that have values, as a
condition of its own and among others that have to hold with it. Whether fields compare with values is
left open, so this is so for every row of every table.
-/

namespace SnapshotAnalytics

open Checks

/-! ## §1 Filters that hold -/

namespace Filter

/-- Whether a field of some kind is in a relation with a value, in the form in which values of this
kind are bound. -/
def compares (o : Sql.Facts) (kind : FieldKind) (field : String)
    (relation : Sql.Relation) (value : String) : Bool :=
  match Predicate.normalize kind field value with
  | .ok normal => o.compares ⟨.column field, relation, kind.parameterType, normal⟩
  | .error _ => false

/-- What patterns are compared with: the field as text. -/
def subject (kind : FieldKind) (field : String) : Sql.Subject :=
  match kind with
  | .text => .column field
  | .number | .date => .asText field

/-- Whether a field matches the pattern of a value. -/
def matchesPattern (o : Sql.Facts) (kind : FieldKind) (field value : String) : Bool :=
  o.compares ⟨subject kind field, .like, .string, Predicate.pattern value⟩

/-- Whether a filter on a field of some kind holds, given the comparisons that are true. -/
def holds (o : Sql.Facts) (kind : FieldKind) (f : Filter) : Bool :=
  match f.operator with
  | .equals | .oneOf | .unrecognized _ => f.values.any (compares o kind f.field .equal)
  | .notEquals => !f.values.any (compares o kind f.field .equal)
  | .contains | .allOf => f.values.all (matchesPattern o kind f.field)
  | .anyOf => f.values.any (matchesPattern o kind f.field)
  | .notContains | .noneOf => !f.values.any (matchesPattern o kind f.field)
  | .lessThan => f.values.head?.any (compares o kind f.field .less)
  | .greaterThan => f.values.head?.any (compares o kind f.field .greater)
  | .lessOrEqual => f.values.head?.any (compares o kind f.field .lessOrEqual)
  | .greaterOrEqual => f.values.head?.any (compares o kind f.field .greaterOrEqual)

/-- Whether a filter on a field of a table holds. -/
def holdsIn (o : Sql.Facts) (t : TableSchema) (f : Filter) : Bool :=
  match t.kindOf f.field with
  | .ok kind => f.holds o kind
  | .error _ => false

/-- Whether all filters hold that have values. -/
def allHold (o : Sql.Facts) (t : TableSchema) (filters : List Filter) : Bool :=
  filters.all fun f => f.values.isEmpty || f.holdsIn o t

end Filter

namespace Predicate

variable {o : Sql.Facts} {ps : List Parameter}

/-! ## §2 Bound values -/

/-- Two lists of which the same is true, from left to right. -/
theorem any_all_of_map_eq {α β : Type} {f : α → Bool} {g : β → Bool} {xs : List α} {ys : List β}
    (h : xs.map f = ys.map g) (hne : ys ≠ []) :
    xs ≠ [] ∧ xs.any f = ys.any g ∧ xs.all f = ys.all g := by
  refine ⟨?_, ?_, ?_⟩
  · rintro rfl
    exact hne (List.map_eq_nil_iff.mp h.symm)
  · have hany := congrArg (List.any · id) h
    rw [List.any_map, List.any_map] at hany
    exact hany
  · have hall := congrArg (List.all · id) h
    rw [List.all_map, List.all_map] at hall
    exact hall

theorem map_holds_bind {filter next : Nat} {kind : FieldKind} {field : String}
    {values : List String} {bound : List Parameter}
    (h : bind filter kind field next values = .ok bound) (relation : Sql.Relation) :
    bound.map (Sql.holds o (.column field) relation) =
      values.map (Filter.compares o kind field relation) := by
  induction values generalizing next bound with
  | nil =>
    cases h
    rfl
  | cons value values ih =>
    simp only [bind, Checks.bind_eq_ok, pure_eq_ok] at h
    obtain ⟨normal, hnormal, rest, hrest, rfl⟩ := h
    rw [List.map_cons, List.map_cons, ih hrest, Filter.compares, hnormal]
    rfl

theorem map_holds_bindPatterns (filter : Nat) (kind : FieldKind) (field : String)
    (values : List String) :
    (bindPatterns filter values).map (Sql.holds o (Filter.subject kind field) .like) =
      values.map (Filter.matchesPattern o kind field) := by
  apply List.ext_getElem?
  intro i
  simp only [bindPatterns, List.getElem?_map, List.getElem?_mapIdx, Option.map_map]
  rfl

/-! ## §3 Clauses -/

theorem judge?_comparison {column symbol : String} {subject : Sql.Subject} {p : Parameter}
    {b : Bool} (hs : Sql.Presents o ps column.toList subject)
    (ht : Sql.Asserts o ps (' ' :: (symbol.toList ++ [' ']) ++ p.placeholder) subject b) :
    Sql.judge? o ps (Sql.part? o ps) (Fragment.comparison column symbol p).chars = some b := by
  have hchars : (Fragment.comparison column symbol p).chars =
      column.toList ++ (' ' :: (symbol.toList ++ [' ']) ++ p.placeholder) := by
    simp [Fragment.comparison, toString]
  rw [hchars]
  exact Sql.judge?_part?_of_presents hs ht (Or.inr rfl)

theorem judge?_membership {field : String} (hfield : Sql.isName field = true) (negated : Bool)
    {values : List Parameter} (hne : values ≠ []) (hvalues : ∀ p ∈ values, Sql.IsBound ps p) :
    Sql.judge? o ps (Sql.part? o ps) (Clause.membership field negated values).fragment.chars =
      some (xor negated (values.any (Sql.holds o (.column field) .equal))) := by
  have hchars : (Clause.membership field negated values).fragment.chars =
      field.toList ++ ((if negated then " NOT IN " else " IN ").toList ++ '(' ::
        ((Fragment.joined ", " (values.map fun value => [.parameter value])).chars ++ [')'])) := by
    cases negated <;> simp [Clause.fragment, Fragment.chars_append]
  rw [hchars]
  exact Sql.judge?_part?_of_presents (Sql.presents_column hfield)
    (Sql.asserts_among negated hne hvalues) (Or.inr (by cases negated <;> rfl))

theorem judge?_equality {field : String} (hfield : Sql.isName field = true) (negated : Bool)
    {values : List Parameter} (hne : values ≠ []) (hvalues : ∀ p ∈ values, Sql.IsBound ps p) :
    Sql.judge? o ps (Sql.part? o ps) (equality field negated values).fragment.chars =
      some (xor negated (values.any (Sql.holds o (.column field) .equal))) := by
  match values with
  | [] => exact absurd rfl hne
  | [value] =>
    have hsymbol : Sql.symbols.lookup (if negated then "!=" else "=").toList =
        some (.equal, negated) := by
      cases negated <;> decide
    rw [List.any_cons, List.any_nil, Bool.or_false]
    exact judge?_comparison (Sql.presents_column hfield)
      (Sql.asserts_symbol hsymbol (hvalues value (List.mem_cons_self ..)))
  | _ :: _ :: _ => exact judge?_membership hfield negated hne hvalues

theorem presents_target {field : String} (hfield : Sql.isName field = true) (kind : FieldKind) :
    Sql.Presents o ps (target kind field).toList (Filter.subject kind field) := by
  cases kind with
  | text => exact Sql.presents_column hfield
  | number | date => exact Sql.presents_asText hfield

/-- All patterns have to match, or not to match, or some of them have to. -/
theorem judge?_substring {field : String} (hfield : Sql.isName field = true) (kind : FieldKind)
    (negated anyOf : Bool) {patterns : List Parameter} (hne : patterns ≠ [])
    (hpatterns : ∀ p ∈ patterns, Sql.IsBound ps p) :
    let asserted p := xor negated (Sql.holds o (Filter.subject kind field) .like p)
    Sql.judge? o ps (Sql.part? o ps)
        (Clause.substring (target kind field) negated anyOf patterns).fragment.chars =
      some (if anyOf then patterns.any asserted else patterns.all asserted) := by
  intro asserted
  have hpart {p : Parameter} (hp : p ∈ patterns) : Sql.judge? o ps (Sql.part? o ps)
      (Fragment.comparison (target kind field) (if negated then "NOT ILIKE" else "ILIKE") p).chars =
        some (asserted p) :=
    judge?_comparison (presents_target hfield kind) (Sql.asserts_like negated (hpatterns p hp))
  have hparts : List.Forall₂
      (fun (part : Fragment) b => Sql.judge? o ps (Sql.conjunction? o ps) part.chars = some b)
      (patterns.map (Fragment.comparison (target kind field)
        (if negated then "NOT ILIKE" else "ILIKE")))
      (patterns.map asserted) := by
    rw [List.forall₂_map_left_iff, List.forall₂_map_right_iff, List.forall₂_same]
    exact fun p hp => Sql.judge?_conjunction?_of_part? (hpart hp)
  -- One pattern stands alone; several are joined by a connective and put in parentheses.
  match patterns with
  | [] => exact absurd rfl hne
  | [p] =>
    rw [List.any_cons, List.any_nil, Bool.or_false, List.all_cons, List.all_nil, Bool.and_true,
      ite_self]
    exact hpart (List.mem_cons_self ..)
  | p :: q :: patterns =>
    cases anyOf with
    | true =>
      have hjoined := Sql.judge?_disjunction?_joined (by simp) hparts
      rw [List.any_map, Function.id_comp] at hjoined
      exact Sql.judge?_part?_parenthesized hjoined
    | false =>
      have hjoined := Sql.judge?_conjunction?_joined (by simp) hparts
      rw [List.all_map, Function.id_comp] at hjoined
      exact Sql.judge?_part?_parenthesized (Sql.judge?_disjunction?_of_conjunction? hjoined)

theorem judge?_order {field symbol : String} (hfield : Sql.isName field = true)
    {relation : Sql.Relation} (hsymbol : Sql.symbols.lookup symbol.toList = some (relation, false))
    {value : Parameter} (hvalue : Sql.IsBound ps value) :
    Sql.judge? o ps (Sql.part? o ps) (Clause.comparison field symbol value).fragment.chars =
      some (Sql.holds o (.column field) relation value) := by
  rw [← Bool.false_xor (Sql.holds o (.column field) relation value)]
  exact judge?_comparison (Sql.presents_column hfield) (Sql.asserts_symbol hsymbol hvalue)

/-! ## §4 Compiled filters -/

/-- **The clause of a filter** is true when the filter holds. -/
theorem judge?_clause {place : Nat} {kind : FieldKind} {f : Filter} {c : Clause}
    (hfield : Sql.isName f.field = true) (hne : f.values ≠ [])
    (h : clause place kind f = .ok c) (hbound : ∀ p ∈ c.parameters, Sql.IsBound ps p) :
    Sql.judge? o ps (Sql.part? o ps) c.fragment.chars = some (f.holds o kind) := by
  have hpatterns :=
    any_all_of_map_eq (map_holds_bindPatterns (o := o) place kind f.field f.values) hne
  -- The values of a clause are bound in the order of those of the filter.
  unfold clause at h
  cases hoperator : f.operator <;>
    simp only [hoperator, Checks.bind_eq_ok, pure_eq_ok, Except.ok.injEq] at h <;>
    simp only [Filter.holds, hoperator]
  case equals | unrecognized =>
    obtain ⟨bound, hbind, rfl⟩ := h
    obtain ⟨hbne, hany, _⟩ := any_all_of_map_eq (map_holds_bind (o := o) hbind .equal) hne
    rw [parameters_equality] at hbound
    rw [judge?_equality hfield false hbne hbound, Bool.false_xor, hany]
  case notEquals =>
    obtain ⟨bound, hbind, rfl⟩ := h
    obtain ⟨hbne, hany, _⟩ := any_all_of_map_eq (map_holds_bind (o := o) hbind .equal) hne
    rw [parameters_equality] at hbound
    rw [judge?_equality hfield true hbne hbound, Bool.true_xor, hany]
  case oneOf =>
    obtain ⟨bound, hbind, rfl⟩ := h
    obtain ⟨hbne, hany, _⟩ := any_all_of_map_eq (map_holds_bind (o := o) hbind .equal) hne
    rw [judge?_membership hfield false hbne hbound, Bool.false_xor, hany]
  case contains | allOf =>
    obtain ⟨hbne, _, hall⟩ := hpatterns
    subst h
    rw [judge?_substring hfield kind false false hbne hbound]
    simp [hall]
  case notContains | noneOf =>
    obtain ⟨hbne, hany, _⟩ := hpatterns
    subst h
    rw [judge?_substring hfield kind true false hbne hbound]
    simp [← hany, List.not_any_eq_all_not]
  case anyOf =>
    obtain ⟨hbne, hany, _⟩ := hpatterns
    subst h
    rw [judge?_substring hfield kind false true hbne hbound]
    simp [hany]
  case lessThan | greaterThan | lessOrEqual | greaterOrEqual =>
    obtain ⟨bound, hbind, h⟩ := h
    obtain ⟨value, values, hvalues⟩ := List.exists_cons_of_ne_nil hne
    rw [hvalues] at hbind ⊢
    -- Of the values the first alone is bound.
    have hmap := map_holds_bind (o := o) hbind
    match bound, h with
    | [], h => cases hmap .equal
    | p :: rest, h =>
      cases h
      have hp := hbound p (List.mem_singleton.mpr rfl)
      rw [List.head?_cons, Option.any_some, ← (List.cons.inj (hmap _)).1]
      exact judge?_order hfield (by decide) hp

variable {t : TableSchema} {filters : List Filter} {p : Predicate}

/-- There is a clause for every filter that has values, and all are true when these filters hold. -/
theorem judge?_compileFrom (hfields : ∀ field ∈ t.fields, Sql.isName field.1 = true) {place : Nat}
    (h : compileFrom t place filters = .ok p)
    (hbound : ∀ q ∈ p.flatMap Clause.parameters, Sql.IsBound ps q) :
    (p = [] ↔ ∀ f ∈ filters, f.values = []) ∧
      ∃ bs, List.Forall₂ (fun (f : Fragment) b =>
        Sql.judge? o ps (Sql.conjunction? o ps) f.chars = some b) (p.map Clause.fragment) bs ∧
          bs.all id = Filter.allHold o t filters := by
  induction filters generalizing place p with
  | nil =>
    cases h
    exact ⟨by simp, [], .nil, rfl⟩
  | cons f filters ih =>
    unfold compileFrom at h
    split at h
    · -- A filter that is passed over leaves no clause, and nothing is asked of it.
      rename_i hempty
      obtain ⟨hnil, bs, hbs, hall⟩ := ih h hbound
      refine ⟨?_, bs, hbs, ?_⟩
      · rw [hnil, List.forall_mem_cons, List.isEmpty_iff.mp hempty]
        simp
      · rw [hall, Filter.allHold, Filter.allHold, List.all_cons, hempty, Bool.true_or, Bool.true_and]
    · rename_i hnonempty
      have hne : f.values ≠ [] := fun hvalues => hnonempty (List.isEmpty_iff.mpr hvalues)
      simp only [Checks.bind_eq_ok, pure_eq_ok] at h
      obtain ⟨kind, hkind, c, hc, rest, hrest, rfl⟩ := h
      rw [List.flatMap_cons, List.forall_mem_append] at hbound
      obtain ⟨_, bs, hbs, hall⟩ := ih hrest hbound.2
      have hfield := hfields _ (TableSchema.kindOf_eq_ok hkind)
      have hclause := judge?_clause (o := o) hfield hne hc hbound.1
      refine ⟨?_, f.holds o kind :: bs, .cons (Sql.judge?_conjunction?_of_part? hclause) hbs, ?_⟩
      · simp [hne]
      · rw [List.all_cons, hall, Filter.allHold, Filter.allHold, List.all_cons, Filter.holdsIn,
          hkind, Bool.eq_false_iff.mpr hnonempty, Bool.false_or, id]

theorem parameters_fragment (p : Predicate) :
    p.fragment.parameters = p.flatMap Clause.parameters := by
  simp [fragment, List.flatMap_map, Clause.parameters_fragment]

/-- The parameters of compiled filters pass their check. -/
theorem check_parameters (h : compile t filters = .ok p) :
    Parameter.check p.fragment.parameters = .ok () := by
  obtain ⟨hplaces, hnodup⟩ := names_compileFrom h
  rw [parameters_fragment]
  refine Parameter.check_eq_ok.mpr ⟨fun q hq => ?_, hnodup⟩
  obtain ⟨filter, _, value, hname⟩ := hplaces q.name (List.mem_map_of_mem hq)
  rw [hname]
  exact isName_parameterName filter value

theorem judge?_fragment (hfields : ∀ field ∈ t.fields, Sql.isName field.1 = true)
    (h : compile t filters = .ok p) (hbound : ∀ q ∈ p.flatMap Clause.parameters, Sql.IsBound ps q)
    (hne : p ≠ []) : Sql.judge? o ps (Sql.conjunction? o ps) p.fragment.chars =
      some (Filter.allHold o t filters) := by
  obtain ⟨_, bs, hbs, hall⟩ := judge?_compileFrom (o := o) hfields h hbound
  rw [← hall]
  exact Sql.judge?_conjunction?_joined (by simpa using hne) hbs

/-- The conditions that compiled filters add to others are true when the filters hold. -/
theorem judge?_conditions (hfields : ∀ field ∈ t.fields, Sql.isName field.1 = true)
    (h : compile t filters = .ok p)
    (hbound : ∀ q ∈ p.flatMap Clause.parameters, Sql.IsBound ps q) :
    ∃ bs, List.Forall₂ (fun (f : Fragment) b =>
      Sql.judge? o ps (Sql.conjunction? o ps) f.chars = some b) p.conditions bs ∧
        bs.all id = Filter.allHold o t filters := by
  match hp : p with
  | [] => exact (judge?_compileFrom hfields h hbound).2
  | c :: rest =>
    have hfragment := judge?_fragment (o := o) hfields h hbound (List.cons_ne_nil c rest)
    refine ⟨[Filter.allHold o t filters], .cons ?_ .nil, Bool.and_true _⟩
    exact Sql.judge?_conjunction?_of_part?
      (Sql.judge?_part?_parenthesized (Sql.judge?_disjunction?_of_conjunction? hfragment))

/-- A condition without text has no truth. -/
theorem truth?_empty (o : Sql.Facts) (ps : List Parameter) :
    Sql.truth? o ps "" = none :=
  rfl

/-- Conditions of which each has a truth. -/
theorem forall₂_conjunct? {fs : List Fragment}
    (h : ∀ c ∈ fs, (Sql.conjunct? o ps c.sql).isSome) :
    List.Forall₂ (fun (f : Fragment) b => Sql.judge? o ps (Sql.conjunction? o ps) f.chars = some b)
      fs (fs.map fun c => Sql.conjunct? o ps c.sql == some true) := by
  rw [List.forall₂_map_right_iff, List.forall₂_same]
  intro c hc
  obtain ⟨b, hb⟩ := Option.isSome_iff_exists.mp (h c hc)
  have hchars := hb
  rw [Sql.conjunct?, Fragment.sql, String.toList_ofList] at hchars
  rw [hchars, hb]
  cases b <;> rfl

/-- Among other conditions of a selection, compiled filters are one more that has to hold. -/
theorem truth?_filtered (hfields : ∀ field ∈ t.fields, Sql.isName field.1 = true)
    (h : compile t filters = .ok p) {before behind : List Fragment} {whole : Fragment}
    (hwhole : Select.filtered (before ++ p.conditions ++ behind) = .text " WHERE " :: whole)
    (hbound : ∀ q ∈ p.flatMap Clause.parameters, Sql.IsBound whole.parameters q)
    (hothers : ∀ c ∈ before ++ behind, (Sql.conjunct? o whole.parameters c.sql).isSome) :
    Sql.truth? o whole.parameters whole.sql =
      some ((before ++ behind).all (fun c => Sql.conjunct? o whole.parameters c.sql == some true) &&
        Filter.allHold o t filters) := by
  rw [List.forall_mem_append] at hothers
  obtain ⟨bs, hconditions, hall⟩ := judge?_conditions (o := o) hfields h hbound
  -- The conditions before the filters, those of the filters and those behind them, in this order.
  have hjudged := List.rel_append
    (List.rel_append (forall₂_conjunct? hothers.1) hconditions) (forall₂_conjunct? hothers.2)
  unfold Select.filtered at hwhole
  split at hwhole
  · cases hwhole
  · rename_i hnonempty
    have hne : before ++ p.conditions ++ behind ≠ [] := fun hnil =>
      hnonempty (List.isEmpty_iff.mpr hnil)
    have hjoined := Sql.judge?_conjunction?_joined hne hjudged
    rw [(List.cons.inj hwhole).2] at hjoined
    rw [Sql.truth?, Fragment.sql, String.toList_ofList,
      Sql.judge?_disjunction?_of_conjunction? hjoined]
    simp only [List.all_append, List.all_map, Function.id_comp, hall, Bool.and_right_comm]

/-- **A compiled predicate means its filters.** Its text is empty exactly if no filter has values;
otherwise it is true, as a condition of its own and among others that have to hold, exactly when every
filter holds that has values. -/
theorem truth?_compile (hfields : ∀ field ∈ t.fields, Sql.isName field.1 = true)
    (h : compile t filters = .ok p) (o : Sql.Facts) :
    (p.fragment.sql = "" ↔ ∀ f ∈ filters, f.values = []) ∧
      (p.fragment.sql ≠ "" → Sql.truth? o p.fragment.parameters p.fragment.sql =
        some (Filter.allHold o t filters)) ∧
      ∀ (before behind : List Fragment) (whole : Fragment),
        Select.filtered (before ++ p.conditions ++ behind) = .text " WHERE " :: whole →
          Parameter.check whole.parameters = .ok () →
            (∀ c ∈ before ++ behind, (Sql.conjunct? o whole.parameters c.sql).isSome) →
              Sql.truth? o whole.parameters whole.sql =
                some ((before ++ behind).all
                  (fun c => Sql.conjunct? o whole.parameters c.sql == some true) &&
                    Filter.allHold o t filters) := by
  have hbound {ps : List Parameter} (hps : Parameter.check ps = .ok ())
      (hsubset : ∀ q ∈ p.flatMap Clause.parameters, q ∈ ps) :
      ∀ q ∈ p.flatMap Clause.parameters, Sql.IsBound ps q :=
    fun q hq => Sql.isBound_of_check hps (hsubset q hq)
  have hown := hbound (check_parameters h) (fun q hq => (parameters_fragment p).symm ▸ hq)
  have htruth (hne : p ≠ []) : Sql.truth? o p.fragment.parameters p.fragment.sql =
      some (Filter.allHold o t filters) := by
    rw [Sql.truth?, Fragment.sql, String.toList_ofList]
    exact Sql.judge?_disjunction?_of_conjunction? (judge?_fragment hfields h hown hne)
  -- Whatever has clauses has a truth, so its text is not the empty one.
  have hempty : p.fragment.sql = "" ↔ p = [] := by
    constructor
    · intro hsql
      by_contra hne
      have hnone := htruth hne
      rw [hsql, truth?_empty] at hnone
      cases hnone
    · rintro rfl
      rfl
  refine ⟨hempty.trans (judge?_compileFrom (o := o) hfields h hown).1,
    fun hne => htruth (mt hempty.mpr hne), ?_⟩
  intro before behind whole hwhole hps hothers
  refine truth?_filtered hfields h hwhole (hbound hps fun q hq => ?_) hothers
  have hparameters := congrArg Fragment.parameters hwhole
  rw [Fragment.parameters_text, Select.parameters_filtered, List.flatMap_append, List.flatMap_append,
    parameters_conditions] at hparameters
  rw [← hparameters]
  exact List.mem_append_left _ (List.mem_append_right _ hq)

/-! Bonds of an issuer, by operators of all sorts. -/

/-- Bonds with their coupons and the days on which they are paid back. -/
def bonds : TableSchema :=
  (((TableSchema.ofDateColumn "bonds" "day" .calendar).withField "issuer" .text).withField
    "coupon" .number).withField "maturity" .date

/-- Filters with no, one and several values. -/
def bondFilters : List Filter :=
  [⟨"issuer", .anyOf, ["bank", "fund"]⟩, ⟨"issuer", .equals, []⟩,
    ⟨"issuer", .noneOf, ["50%", "_"]⟩, ⟨"issuer", .unrecognized "like", ["EQ"]⟩,
    ⟨"coupon", .notEquals, ["1", " 2.50 "]⟩, ⟨"coupon", .contains, ["5"]⟩,
    ⟨"maturity", .lessThan, ["20240229", "never"]⟩]

/-- Only a bond of `EQ` whose issuer and coupon are like `fund` and `5`, that is paid back early. -/
def bondFacts : Sql.Facts where
  compares c :=
    [⟨.column "issuer", .equal, .string, "EQ"⟩, ⟨.column "issuer", .like, .string, "%fund%"⟩,
      ⟨.asText "coupon", .like, .string, "%5%"⟩, ⟨.column "day", .equal, .date, "2023-12-29"⟩,
      ⟨.column "maturity", .less, .date, "2024-02-29"⟩].contains c
  other? _ := none

/-- What the filters are compiled to. -/
def bondClauses : Predicate :=
  [.substring "issuer" false true [⟨"p0_0", .string, "%bank%"⟩, ⟨"p0_1", .string, "%fund%"⟩],
    .substring "issuer" true false [⟨"p2_0", .string, "%50\\%%"⟩, ⟨"p2_1", .string, "%\\_%"⟩],
    .comparison "issuer" "=" ⟨"p3_0", .string, "EQ"⟩,
    .membership "coupon" true [⟨"p4_0", .float, "1"⟩, ⟨"p4_1", .float, "2.5"⟩],
    .substring "toString(coupon)" false false [⟨"p5_0", .string, "%5%"⟩],
    .comparison "maturity" "<" ⟨"p6_0", .date, "2024-02-29"⟩]

/-- The condition that stands before those of the filters. -/
def bondDay : Fragment :=
  bonds.dateCondition "=" "snapshot" ⟨2023, 12, 29, by decide⟩

theorem truth?_compile_bonds :
    compile bonds bondFilters = .ok bondClauses ∧
      Sql.truth? bondFacts bondClauses.fragment.parameters bondClauses.fragment.sql = some true ∧
        let whole := Fragment.joined " AND " ([bondDay] ++ bondClauses.conditions ++ [])
        Parameter.check whole.parameters = .ok () ∧
          Sql.truth? bondFacts whole.parameters whole.sql = some true := by
  have hcompile : compile bonds bondFilters = .ok bondClauses := by decide +kernel
  have hhold : Filter.allHold bondFacts bonds bondFilters = true := by decide +kernel
  obtain ⟨hempty, hown, hwhole⟩ := truth?_compile (by decide) hcompile bondFacts
  have hnonempty : bondClauses.fragment.sql ≠ "" := fun h => absurd (hempty.mp h) (by decide)
  have hcheck : Parameter.check
      (Fragment.joined " AND " ([bondDay] ++ bondClauses.conditions ++ [])).parameters = .ok () := by
    decide +kernel
  -- The condition on the day has no filter behind it, and holds of these bonds.
  have hday : ∀ c ∈ [bondDay], Sql.conjunct? bondFacts
      (Fragment.joined " AND " ([bondDay] ++ bondClauses.conditions ++ [])).parameters c.sql =
        some true := by
    decide +kernel
  refine ⟨hcompile, (hown hnonempty).trans (congrArg some hhold), hcheck, ?_⟩
  rw [hwhole [bondDay] [] _ rfl hcheck fun c hc => Option.isSome_of_eq_some (hday c hc), hhold,
    Bool.and_true]
  exact congrArg some (List.all_eq_true.mpr fun c hc => beq_iff_eq.mpr (hday c hc))

end Predicate

end SnapshotAnalytics

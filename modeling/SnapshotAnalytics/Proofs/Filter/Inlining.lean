import SnapshotAnalytics.Proofs.Calendar.Text
import SnapshotAnalytics.Proofs.Filter.Meaning
import SnapshotAnalytics.Proofs.Number.Decimals
import SnapshotAnalytics.Proofs.Query.Inlining

/-!
# Filters shown with their values

For logs a compiled predicate is shown with its values in place of the placeholders. Numbers and dates
are bound in a form of their own and have no braces, so the text is right unless a text that a filter
compares with looks like the placeholder of a value bound later.
-/

namespace SnapshotAnalytics

open Checks

/-! ## §1 Values without braces -/

/-- Plain decimal notation is made of digits and the point. -/
theorem Scientific.mem_positional {s : Scientific} (hs : s.Proper) {c : Char}
    (hc : c ∈ s.positional []) : c.isDigit = true ∨ c = '.' := by
  have hzero : '0'.isDigit = true := rfl
  have hzeros (n : Nat) (h : c ∈ List.replicate n '0') : c.isDigit = true :=
    List.eq_of_mem_replicate h ▸ hzero
  simp only [positional] at hc
  -- The value is below one, an integer, or has digits on both sides of the point.
  split at hc
  · rw [List.cons_append, List.cons_append, List.mem_cons, List.mem_cons, List.mem_append] at hc
    rcases hc with rfl | rfl | hc | hc
    · exact Or.inl hzero
    · exact Or.inr rfl
    · exact Or.inl (hzeros _ hc)
    · exact Or.inl (hs.digits c hc)
  split at hc
  · rw [List.append_nil, List.mem_append] at hc
    exact Or.inl (hc.elim (hs.digits c) (hzeros _))
  · rw [List.mem_append, List.mem_cons] at hc
    rcases hc with hc | rfl | hc
    · exact Or.inl (hs.digits c (List.mem_of_mem_take hc))
    · exact Or.inr rfl
    · exact Or.inl (hs.digits c (List.mem_of_mem_drop hc))

theorem Binary64.brace_not_mem_plainText (x : Binary64) : '\x7b' ∉ x.plainText := by
  intro hc
  rcases List.mem_append.mp hc with hsign | hnumber
  · split at hsign
    · exact absurd hsign (by decide)
    · exact absurd hsign List.not_mem_nil
  · exact absurd (Scientific.mem_positional (x.proper_shortest .upward) hnumber) (by decide)

namespace Parameter

/-- Only the value of a text may have opening braces. -/
def IsPlain (p : Parameter) : Prop :=
  p.type ≠ .string → '\x7b' ∉ p.value.toList

/-- A value without opening braces holds no placeholder. -/
theorem not_placeholder_isInfix {p : Parameter} {s : List Char} (hs : '\x7b' ∉ s) :
    ¬ p.placeholder <:+: s :=
  fun h => hs (h.subset List.mem_cons_self)

end Parameter

/-! ## §2 Bound values -/

namespace Predicate

theorem isPlain_of_normalize {kind : FieldKind} {field value normal : String}
    (h : normalize kind field value = .ok normal) (name : String) :
    Parameter.IsPlain ⟨name, kind.parameterType, normal⟩ := by
  intro htype
  -- Numbers are rewritten in plain notation and dates in digits and hyphens; only texts may hold
  -- braces.
  cases kind with
  | text => exact absurd rfl htype
  | number =>
    rw [normalize] at h
    split at h
    · cases h
      rw [String.toList_ofList]
      exact Binary64.brace_not_mem_plainText _
    · cases h
  | date =>
    rw [normalize] at h
    split at h
    · cases h
      exact fun hc => absurd (Date.mem_text hc) (by decide)
    · cases h

theorem isPlain_of_bind {filter next : Nat} {kind : FieldKind} {field : String}
    {values : List String} {ps : List Parameter} (h : bind filter kind field next values = .ok ps) :
    ∀ p ∈ ps, p.IsPlain := by
  induction values generalizing next ps with
  | nil =>
    cases h
    exact List.forall_mem_nil _
  | cons value values ih =>
    simp only [bind, Checks.bind_eq_ok, pure_eq_ok] at h
    obtain ⟨normal, hnormal, rest, hrest, rfl⟩ := h
    exact List.forall_mem_cons.mpr ⟨isPlain_of_normalize hnormal _, ih hrest⟩

theorem isPlain_bindPatterns {filter : Nat} {values : List String} :
    ∀ p ∈ bindPatterns filter values, p.IsPlain := by
  intro p hp htype
  obtain ⟨i, _, rfl⟩ := List.mem_mapIdx.mp hp
  exact absurd rfl htype

theorem isPlain_of_clause {place : Nat} {kind : FieldKind} {f : Filter} {c : Clause}
    (h : clause place kind f = .ok c) : ∀ p ∈ c.parameters, p.IsPlain := by
  unfold clause at h
  -- The parameters of a clause are its bound values or patterns, or the first of its bound values.
  cases hoperator : f.operator <;>
    simp only [hoperator, Checks.bind_eq_ok, pure_eq_ok, Except.ok.injEq] at h
  case equals | unrecognized | notEquals =>
    obtain ⟨ps, hps, rfl⟩ := h
    rw [parameters_equality]
    exact isPlain_of_bind hps
  case oneOf =>
    obtain ⟨ps, hps, rfl⟩ := h
    exact isPlain_of_bind hps
  case contains | allOf | notContains | noneOf | anyOf =>
    rw [← h]
    exact isPlain_bindPatterns
  case lessThan | greaterThan | lessOrEqual | greaterOrEqual =>
    obtain ⟨ps, hps, h⟩ := h
    have hplain := isPlain_of_bind hps
    cases ps with
    | nil =>
      cases h
      exact List.forall_mem_nil _
    | cons p ps =>
      cases h
      exact List.forall_mem_singleton.mpr (hplain p List.mem_cons_self)

variable {t : TableSchema} {filters : List Filter} {p : Predicate}

theorem isPlain_of_compileFrom {place : Nat} (h : compileFrom t place filters = .ok p) :
    ∀ q ∈ p.flatMap Clause.parameters, q.IsPlain := by
  induction filters generalizing place p with
  | nil =>
    cases h
    exact List.forall_mem_nil _
  | cons f filters ih =>
    unfold compileFrom at h
    split at h
    · exact ih h
    · simp only [Checks.bind_eq_ok, pure_eq_ok] at h
      obtain ⟨kind, _, c, hc, rest, hrest, rfl⟩ := h
      rw [List.flatMap_cons, List.forall_mem_append]
      exact ⟨isPlain_of_clause hc, ih hrest⟩

/-! ## §3 Shown predicates -/

theorem isSound_fragment (ht : t.Checked) (h : compile t filters = .ok p) : p.fragment.IsSound := by
  refine Fragment.IsWritten.isSound ht (Fragment.IsWritten.joined (by decide) fun f hf => ?_)
  obtain ⟨c, hc, rfl⟩ := List.mem_map.mp hf
  exact Clause.isWritten_fragment (isWritten_of_compileFrom ht h c hc)

/-- **A predicate shows its values** exactly when no text holds the placeholder of a value bound
later. -/
theorem inline_eq_shown_iff (ht : t.Checked) (h : compile t filters = .ok p) :
    Parameter.inline p.fragment.parameters p.fragment.sql = p.fragment.shown ↔
      p.fragment.parameters.Pairwise fun q r =>
        q.type = .string → ¬ r.placeholder <:+: q.value.toList := by
  have hplain : ∀ q ∈ p.fragment.parameters, q.IsPlain := by
    rw [parameters_fragment]
    exact isPlain_of_compileFrom h
  have hnumbers : Parameter.PlainNumbers p.fragment.parameters :=
    fun q hq htype => hplain q hq (htype ▸ by decide)
  rw [(isSound_fragment ht h).inline_eq_shown_iff (check_parameters h) hnumbers]
  apply List.Pairwise.iff_of_mem
  intro q r hq _
  constructor
  · exact fun hbefore htype => hbefore (htype ▸ by decide)
  · intro hbefore _
    by_cases htype : q.type = .string
    · exact hbefore htype
    · exact Parameter.not_placeholder_isInfix (hplain q hq htype)

end Predicate

end SnapshotAnalytics

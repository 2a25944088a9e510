import SnapshotAnalytics.Query.Statement

/-!
# Parameters of a statement

The parameters of a statement are those of its conditions, from left to right. A list of parameters
passes its check when all of them have names and no two have the same one.
-/

namespace SnapshotAnalytics

/-! ## §1 Checked lists -/

namespace Parameter

theorem checkFrom_eq_ok {bound : List String} {ps : List Parameter} :
    checkFrom bound ps = .ok () ↔
      (∀ p ∈ ps, isName p.name = true) ∧ (ps.map name).Nodup ∧ ∀ p ∈ ps, p.name ∉ bound := by
  induction ps generalizing bound with
  | nil => simp [checkFrom]
  | cons p ps ih =>
    unfold checkFrom
    by_cases hname : isName p.name = true
    · by_cases hbound : p.name ∈ bound
      · simp [hname, hbound]
      · -- The name of the first one is bound for those behind it.
        have hfresh : (∀ q ∈ ps, q.name ∉ p.name :: bound) ↔
            p.name ∉ ps.map name ∧ ∀ q ∈ ps, q.name ∉ bound := by
          simp only [List.mem_cons, not_or, List.mem_map, not_exists, not_and, forall_and]
        simp only [hname, hbound, Bool.not_true, Bool.false_eq_true, if_false, List.contains_eq_mem,
          decide_false, ih, hfresh, List.map_cons, List.nodup_cons, List.forall_mem_cons,
          not_false_eq_true, true_and]
        constructor
        · rintro ⟨hnames, hnodup, hp, hps⟩
          exact ⟨hnames, ⟨hp, hnodup⟩, hps⟩
        · rintro ⟨hnames, ⟨hp, hnodup⟩, hps⟩
          exact ⟨hnames, hnodup, hp, hps⟩
    · simp [hname]

theorem check_eq_ok {ps : List Parameter} :
    check ps = .ok () ↔ (∀ p ∈ ps, isName p.name = true) ∧ (ps.map name).Nodup := by
  simp [check, checkFrom_eq_ok]

end Parameter

/-! ## §2 Parameters of fragments -/

namespace Fragment

@[simp] theorem parameters_nil : parameters [] = [] :=
  rfl

@[simp] theorem parameters_text (s : String) (f : Fragment) :
    parameters (.text s :: f) = parameters f :=
  rfl

@[simp] theorem parameters_parameter (p : Parameter) (f : Fragment) :
    parameters (.parameter p :: f) = p :: parameters f :=
  rfl

@[simp] theorem parameters_append (f g : Fragment) :
    parameters (f ++ g) = parameters f ++ parameters g :=
  List.filterMap_append

theorem joined_cons_cons (between : String) (f g : Fragment) (fs : List Fragment) :
    joined between (f :: g :: fs) = f ++ .text between :: joined between (g :: fs) :=
  rfl

@[simp] theorem parameters_joined (between : String) (fs : List Fragment) :
    parameters (joined between fs) = fs.flatMap parameters := by
  induction fs with
  | nil => rfl
  | cons f fs ih =>
    cases fs with
    | nil => exact (List.append_nil _).symm
    | cons next fs =>
      rw [joined_cons_cons, parameters_append, parameters_text, List.flatMap_cons, ih]

@[simp] theorem parameters_parenthesized (f : Fragment) :
    parameters (parenthesized f) = parameters f := by
  simp [parenthesized]

@[simp] theorem parameters_comparison (column symbol : String) (p : Parameter) :
    parameters (comparison column symbol p) = [p] :=
  rfl

end Fragment

/-! ## §3 Parameters of selections -/

@[simp] theorem Select.parameters_filtered (conditions : List Fragment) :
    (filtered conditions).parameters = conditions.flatMap Fragment.parameters := by
  unfold filtered
  split
  · rename_i hempty
    rw [List.isEmpty_iff.mp hempty]
    rfl
  · simp

/-- **The parameters of a selection** are those of its conditions. -/
theorem Select.parameters_fragment (s : Select) :
    s.fragment.parameters = s.conditions.flatMap Fragment.parameters := by
  have hclause (keyword : String) (listed : List String) :
      (clause keyword listed).parameters = [] := by
    unfold clause
    split <;> rfl
  have hbounds (limit offset : Option Nat) : (bounds limit offset).parameters = [] := by
    unfold bounds
    split
    · rfl
    · split <;> rfl
  simp [fragment, hclause, hbounds]

end SnapshotAnalytics

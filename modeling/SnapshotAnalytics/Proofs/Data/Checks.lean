/-!
# Sequences of checks

A sequence of checks succeeds when each of them does, one after the other.
-/

namespace SnapshotAnalytics.Checks

variable {ε α β : Type}

theorem bind_eq_ok {x : Except ε α} {f : α → Except ε β} {b : β} :
    (x >>= f) = .ok b ↔ ∃ a, x = .ok a ∧ f a = .ok b := by
  cases x with
  | error e => simp [bind, Except.bind]
  | ok a => simp [bind, Except.bind]

/-- A check gives one result. -/
theorem ok_unique {x : Except ε α} {a b : α} (ha : x = .ok a) (hb : x = .ok b) : a = b := by
  rw [ha, Except.ok.injEq] at hb
  exact hb

theorem pure_eq_ok {a b : α} : (pure a : Except ε α) = .ok b ↔ a = b := by
  simp [pure, Except.pure]

/-- A sequence that stops at a check which is refused when something holds. -/
theorem refuse_eq_ok {c : Prop} [Decidable c] {e : ε} {f : β → Except ε α} {x : Except ε α} {a : α} :
    (if c then throw e >>= f else x) = .ok a ↔ ¬ c ∧ x = .ok a := by
  by_cases hc : c
  · simp [hc, throw, throwThe, MonadExceptOf.throw, bind, Except.bind]
  · simp [hc]

/-- A check of every item of a list. -/
theorem forM_eq_ok {items : List α} {check : α → Except ε Unit} :
    items.forM check = .ok () ↔ ∀ x ∈ items, check x = .ok () := by
  induction items with
  | nil => simp [List.forM, pure, Except.pure]
  | cons x items ih =>
    -- A list is checked by its first item and then by the list of the others.
    show (check x >>= fun _ => items.forM check) = .ok () ↔ _
    rw [bind_eq_ok, List.forall_mem_cons, ← ih]
    constructor
    · rintro ⟨_, hx, hitems⟩
      exact ⟨hx, hitems⟩
    · rintro ⟨hx, hitems⟩
      exact ⟨(), hx, hitems⟩

/-- A check of what may be left out. -/
theorem optionForM_eq_ok {value : Option α} {check : α → Except ε Unit} :
    value.forM check = .ok () ↔ ∀ x ∈ value, check x = .ok () := by
  cases value with
  | none => simp [Option.forM, pure, Except.pure]
  | some x => simp [Option.forM]

end SnapshotAnalytics.Checks

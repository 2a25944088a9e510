import SnapshotAnalytics.Proofs.Cache.KeyText
import SnapshotAnalytics.Proofs.Report.Plans
import SnapshotAnalytics.Proofs.Table.Schema
import SnapshotAnalytics.Report.Resolution

/-!
# Keys of reports

The parts of the keys under which reports and resolutions are stored are fixed words, names that were
checked, dates and hexadecimal digits. None of these has a colon, so these keys can be told apart by
their texts.
-/

namespace SnapshotAnalytics

/-! ## §1 Names of tables and fields -/

namespace TableSchema.Checked

variable {t : TableSchema}

theorem colon_not_mem_name (ht : t.Checked) : ':' ∉ t.name.toList := by
  intro h
  rcases Text.isIdentifierPart_of_isTableIdentifier ht.name h with hpart | hpoint
  · exact absurd hpart (by decide)
  · exact absurd hpoint (by decide)

theorem colon_not_mem_field (ht : t.Checked) {field : String} (h : t.require field = .ok ()) :
    ':' ∉ field.toList := by
  intro hcolon
  have hpart := Text.isIdentifierPart_of_isIdentifier (ht.isIdentifier_of_require h) hcolon
  exact absurd hpart (by decide)

end TableSchema.Checked

/-! ## §2 Keys without colons -/

/-- A key of a fixed word, names, a date and two digests. -/
theorem CacheKey.isPlain_of_parts {k : CacheKey} {word : String} {names : List String} {d : Date}
    {spec filters : Json}
    (hparts : k.parts = word :: names ++ [d.text, fingerprint spec, fingerprint filters])
    (hword : ':' ∉ word.toList) (hnames : ∀ name ∈ names, ':' ∉ name.toList) : k.IsPlain := by
  rw [IsPlain, hparts, List.forall_mem_append, List.forall_mem_cons]
  refine ⟨⟨hword, hnames⟩, ?_⟩
  simp only [List.forall_mem_cons, List.not_mem_nil, false_implies, implies_true, and_true]
  exact ⟨d.colon_not_mem_text, colon_not_mem_fingerprint _, colon_not_mem_fingerprint _⟩

variable {tables : TableRegistry}

theorem BreakdownPlan.Prepared.isPlain_key (htables : tables.Registered) {plan : BreakdownPlan}
    (hplan : plan.Prepared tables) (snapshot : Date) : (plan.key snapshot).IsPlain := by
  have ht := (htables.of_table hplan.table).2
  apply @CacheKey.isPlain_of_parts _ "grouped" [plan.table.name, plan.groupBy] _ _ _ rfl
  · decide
  · simp [ht.colon_not_mem_name, ht.colon_not_mem_field hplan.declared]

theorem StatCardPlan.Prepared.isPlain_key (htables : tables.Registered) {plan : StatCardPlan}
    (hplan : plan.Prepared tables) (snapshot : Date) : (plan.key snapshot).IsPlain := by
  have ht := (htables.of_table hplan.table).2
  apply @CacheKey.isPlain_of_parts _ "stat" [plan.table.name] _ _ _ rfl
  · decide
  · simp [ht.colon_not_mem_name]

theorem HistoryPlan.Prepared.isPlain_key (htables : tables.Registered) {plan : HistoryPlan}
    (hplan : plan.Prepared tables) (base : Date) : (plan.key base).IsPlain := by
  have ht := (htables.of_table hplan.table).2
  apply @CacheKey.isPlain_of_parts _ "historical" [plan.table.name] _ _ _ rfl
  · decide
  · simp [ht.colon_not_mem_name]

theorem MaturityPlan.Prepared.isPlain_key (htables : tables.Registered) {plan : MaturityPlan}
    (hplan : plan.Prepared tables) (snapshot : Date) : (plan.key snapshot).IsPlain := by
  have ht := (htables.of_table hplan.table).2
  apply @CacheKey.isPlain_of_parts _ "future" [plan.table.name] _ _ _ rfl
  · decide
  · simp [ht.colon_not_mem_name]

theorem Resolution.isPlain_key {t : TableSchema} (ht : t.Checked) (direction : Direction)
    (target : Date) : (key t direction target).IsPlain := by
  have hdirection : ':' ∉ direction.name.toList := by cases direction <;> decide
  simp only [CacheKey.IsPlain, key, CacheKey.parts, List.forall_mem_cons, List.not_mem_nil,
    false_implies, implies_true, and_true]
  exact ⟨by decide, ht.colon_not_mem_name, hdirection, target.colon_not_mem_text⟩

end SnapshotAnalytics

import SnapshotAnalytics.Proofs.Engine.StatementForms
import SnapshotAnalytics.Proofs.Filter.Names
import SnapshotAnalytics.Proofs.Report.Statements

/-!
# Statements over a registry

A statement over a registry is that of an accepted request at some snapshot, or it looks for a
snapshot of a registered table. Whatever the request is, the text of the statement has a placeholder
for each of its parameters, in their order, and otherwise only words of the table.
-/

namespace SnapshotAnalytics

open Text

/-- A statement over a registry, and its table. -/
inductive Statement (tables : TableRegistry) : TableSchema → Select → Prop
  | report {r : Request} {t : TableSchema} {select : Date → Select}
      (hr : r.States tables t select) (snapshot : Date) : Statement tables t (select snapshot)
  | resolution {name : String} {t : TableSchema} (ht : tables.table name = .ok t)
      (direction : Direction) (target : Date) :
      Statement tables t (Resolution.select t direction target)

variable {tables : TableRegistry} {t : TableSchema} {s : Select}

/-! ## §1 Words -/

/-- A request that passes every check is for a registered table. -/
theorem Request.States.exists_table {r : Request} {select : Date → Select}
    (h : r.States tables t select) : ∃ name, tables.table name = .ok t := by
  cases h with
  | breakdown h => exact ⟨_, (BreakdownPlan.prepared h).1.table⟩
  | statCard h => exact ⟨_, (StatCardPlan.prepared h).1.table⟩
  | history h => exact ⟨_, (HistoryPlan.prepared h).1.table⟩
  | maturity h => exact ⟨_, (MaturityPlan.prepared h).1.table⟩
  | rows h => exact ⟨_, (RowsPlan.prepared h).1.table⟩
  | distinct h => exact ⟨_, (DistinctPlan.prepared h).1.table⟩

theorem Request.States.isWritten_select {r : Request} {select : Date → Select}
    (h : r.States tables t select) (ht : t.Checked) (snapshot : Date) :
    (select snapshot).IsWritten t := by
  cases h with
  | breakdown h => exact (BreakdownPlan.prepared h).1.isWritten_select ht snapshot
  | statCard h => exact (StatCardPlan.prepared h).1.isWritten_select ht snapshot
  | history h => exact (HistoryPlan.prepared h).1.isWritten_select ht snapshot
  | maturity h => exact (MaturityPlan.prepared h).1.isWritten_select ht snapshot
  | rows h => exact (RowsPlan.prepared h).1.isWritten_select ht snapshot
  | distinct h => exact (DistinctPlan.prepared h).1.isWritten_select ht snapshot

namespace Statement

/-- The table of a statement is registered under its own name, and it has been checked. -/
theorem table (hregistered : tables.Registered) (h : Statement tables t s) :
    tables.table t.name = .ok t ∧ t.Checked := by
  have hfound : ∃ name, tables.table name = .ok t := by
    cases h with
    | report hr snapshot => exact hr.exists_table
    | resolution ht direction target => exact ⟨_, ht⟩
  obtain ⟨name, hname⟩ := hfound
  obtain ⟨rfl, ht⟩ := hregistered.of_table hname
  exact ⟨hname, ht⟩

theorem isWritten (hregistered : tables.Registered) (h : Statement tables t s) : s.IsWritten t := by
  have ht := (h.table hregistered).2
  cases h with
  | report hr snapshot => exact hr.isWritten_select ht snapshot
  | resolution _ direction target => exact Resolution.isWritten_select ht direction target

end Statement

/-! ## §2 Names -/

/-- A selection with conditions on dates, and those of compiled filters behind them, binds no name
twice if the dates do not and their names do not start like those of values. -/
theorem Select.nodup_names (dates : List Fragment) (names : List String) {filters : List Filter}
    {p : Predicate} (hp : Predicate.compile t filters = .ok p)
    (hconditions : s.conditions = dates ++ p.conditions)
    (hnames : (dates.flatMap Fragment.parameters).map Parameter.name = names)
    (hnodup : names.Nodup) (hstart : ∀ name ∈ names, name.toList.head? ≠ some 'p') :
    (s.fragment.parameters.map Parameter.name).Nodup := by
  rw [parameters_fragment, hconditions, List.flatMap_append, List.map_append, hnames,
    Predicate.parameters_conditions]
  exact Predicate.nodup_names hp hnodup hstart

/-- No report binds a name twice. -/
theorem Request.States.nodup_names {r : Request} {select : Date → Select}
    (h : r.States tables t select) (snapshot : Date) :
    ((select snapshot).fragment.parameters.map Parameter.name).Nodup := by
  cases h with
  | @breakdown r plan h =>
    exact Select.nodup_names [plan.table.dateCondition "=" "snapshot" snapshot] ["snapshot"]
      (BreakdownPlan.prepared h).1.predicate rfl rfl (by decide) (by decide)
  | @statCard r plan h =>
    exact Select.nodup_names [plan.table.dateCondition "=" "snapshot" snapshot] ["snapshot"]
      (StatCardPlan.prepared h).1.predicate rfl rfl (by decide) (by decide)
  | @history r plan h =>
    have hpredicate := (HistoryPlan.prepared h).1.predicate
    -- The first date may be left out.
    cases hstart : plan.spec.start with
    | none =>
      exact Select.nodup_names [plan.table.dateCondition "<=" "base" snapshot] ["base"] hpredicate
        (by rw [HistoryPlan.select, hstart]; rfl) rfl (by decide) (by decide)
    | some start =>
      exact Select.nodup_names [plan.table.dateCondition "<=" "base" snapshot,
          plan.table.dateCondition ">=" "start" start] ["base", "start"] hpredicate
        (by rw [HistoryPlan.select, hstart]; rfl) rfl (by decide) (by decide)
  | @maturity r plan h =>
    exact Select.nodup_names [plan.table.dateCondition "=" "snapshot" snapshot,
        .comparison plan.maturity ">=" ⟨"from", .date, snapshot.text⟩] ["snapshot", "from"]
      (MaturityPlan.prepared h).1.predicate rfl rfl (by decide) (by decide)
  | @rows r plan h =>
    exact Select.nodup_names [plan.table.dateCondition "=" "snapshot" snapshot] ["snapshot"]
      (RowsPlan.prepared h).1.predicate rfl rfl (by decide) (by decide)
  | @distinct r plan h =>
    exact Select.nodup_names [plan.table.dateCondition "=" "snapshot" snapshot] ["snapshot"]
      (DistinctPlan.prepared h).1.predicate rfl rfl (by decide) (by decide)

namespace Statement

theorem nodup_names (h : Statement tables t s) :
    (s.fragment.parameters.map Parameter.name).Nodup := by
  cases h with
  | report hr snapshot => exact hr.nodup_names snapshot
  | resolution _ direction target =>
    rw [Select.parameters_fragment]
    exact List.nodup_singleton "target"

/-! ## §3 Placeholders and parameters -/

/-- **Placeholders and parameters agree**: the placeholders in the text of a statement, from left to
right, are those of its parameters, in their order, and the parameters pass their check. -/
theorem placeholders_agree (hregistered : tables.Registered) (h : Statement tables t s) :
    Text.placeholders s.query.sql.toList = s.query.parameters.map Parameter.placeholder ∧
      Parameter.check s.query.parameters = .ok () := by
  have hsound : s.fragment.IsSound :=
    ((h.isWritten hregistered).fragment (h.table hregistered).2).isSound (h.table hregistered).2
  constructor
  · rw [Select.query, Fragment.query, Fragment.sql, String.toList_ofList]
    exact hsound.placeholders_chars
  · exact Parameter.check_eq_ok.mpr ⟨hsound.isName, h.nodup_names⟩

/-! ## §4 Tokens -/

/-- **Only declared identifiers reach a statement**: the tokens of its text, which make up the whole
of it, are words of its table and placeholders of its parameters. So there is no quote, backslash,
semicolon or hyphen in it, and nothing but ASCII. -/
theorem declared_only (hregistered : tables.Registered) (h : Statement tables t s) :
    tables.table s.table = .ok t ∧
      (tokens s.query.sql.toList).flatten = s.query.sql.toList ∧
      (∀ token ∈ tokens s.query.sql.toList,
        Vocabulary t token ∨ ∃ p ∈ s.query.parameters, token = p.placeholder) ∧
      ∀ c ∈ s.query.sql.toList, c.toNat < 128 ∧ c ∉ "\'\"`\\;-".toList := by
  obtain ⟨htable, ht⟩ := h.table hregistered
  have hselect := h.isWritten hregistered
  have hwritten := hselect.fragment ht
  have hsql : s.query.sql.toList = s.fragment.chars := String.toList_ofList
  refine ⟨hselect.table ▸ htable, flatten_tokens _, ?_, ?_⟩
  · intro token htoken
    rw [hsql] at htoken
    exact hwritten.mem_tokens htoken
  · intro c hc
    rw [hsql] at hc
    have hbraces : ['\x7b', ':', '\x7d'].all (·.toNat < 128) = true := by decide
    -- A character of a word or a brace is none of the refused ones.
    have hrefused : "\'\"`\\;-".toList.all fun c =>
        !isWordingChar c && !List.contains ['\x7b', ':', '\x7d'] c := by decide
    have hchar := (hwritten.isSound ht).mem_chars hc
    constructor
    · rcases hchar with hword | hbrace
      · exact toNat_lt_of_isWordingChar hword
      · exact of_decide_eq_true (List.all_eq_true.mp hbraces c hbrace)
    · intro hbad
      have hneither := List.all_eq_true.mp hrefused c hbad
      rw [Bool.and_eq_true, Bool.not_eq_true', Bool.not_eq_true'] at hneither
      rcases hchar with hword | hbrace
      · exact Bool.false_ne_true (hneither.1.symm.trans hword)
      · exact Bool.false_ne_true (hneither.2.symm.trans (List.contains_iff_mem.mpr hbrace))

/-! The rows of two desks, behind a filter without values on a field that is not declared. -/

/-- The trades of two desks whose sizes are written with a digit and a sign. -/
def tradesOfDesks : RowsRequest :=
  ⟨"trades", ["desk"], [⟨"no; such -- field", .equals, []⟩, .oneOf "desk" ["E\'Q", "FX"],
    ⟨"size", .contains, ["1", "_"]⟩], none, false, 10, 0, none⟩

/-- The checked listing of these trades. -/
def tradesPlan : RowsPlan :=
  ⟨Engine.trades, tradesOfDesks, ["desk"], 10,
    [.membership "desk" false [⟨"p1_0", .string, "E\'Q"⟩, ⟨"p1_1", .string, "FX"⟩],
      .substring "toString(size)" false false
        [⟨"p2_0", .string, "%1%"⟩, ⟨"p2_1", .string, "%\\_%"⟩]]⟩

theorem registered_trades : TableRegistry.Registered [("trades", Engine.trades)] := by
  have hregister : TableRegistry.register [] Engine.trades = .ok [("trades", Engine.trades)] := by
    decide +kernel
  have hdeclared : Engine.trades.Declared :=
    .withField (.withField (.withField (.ofDateColumn ..) ..) ..) ..
  exact .register .empty hdeclared hregister

theorem report_trades :
    Statement [("trades", Engine.trades)] Engine.trades (tradesPlan.select .epoch) := by
  have hplan : RowsPlan.prepare [("trades", Engine.trades)] tradesOfDesks = .ok tradesPlan := rfl
  have hstates := Request.States.rows hplan
  exact .report hstates .epoch

theorem placeholders_agree_trades :
    Text.placeholders (tradesPlan.select .epoch).query.sql.toList =
        ["\x7bsnapshot:String\x7d", "\x7bp1_0:String\x7d", "\x7bp1_1:String\x7d",
          "\x7bp2_0:String\x7d", "\x7bp2_1:String\x7d"].map String.toList ∧
      Parameter.check (tradesPlan.select .epoch).query.parameters = .ok () := by
  obtain ⟨hplaceholders, hcheck⟩ := placeholders_agree registered_trades report_trades
  exact ⟨hplaceholders.trans (by decide +kernel), hcheck⟩

theorem declared_only_trades :
    (tradesPlan.select .epoch).query.sql =
        "SELECT desk FROM trades WHERE day = \x7bsnapshot:String\x7d AND " ++
          "(desk IN (\x7bp1_0:String\x7d, \x7bp1_1:String\x7d) AND (toString(size) " ++
          "ILIKE \x7bp2_0:String\x7d AND toString(size) ILIKE \x7bp2_1:String\x7d)) LIMIT 10" ∧
      ∀ c ∈ (tradesPlan.select .epoch).query.sql.toList,
        c.toNat < 128 ∧ c ∉ "\'\"`\\;-".toList := by
  obtain ⟨_, _, _, hchars⟩ := declared_only registered_trades report_trades
  exact ⟨by decide +kernel, hchars⟩

end Statement

end SnapshotAnalytics

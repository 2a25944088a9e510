import SnapshotAnalytics.Proofs.Engine.Statements
import SnapshotAnalytics.Proofs.Text.Searching
import SnapshotAnalytics.Proofs.Warehouse.SingleStatement

/-!
# Statements before the guard

The guard looks for words in the text of a query, whatever they stand for there. The statements over a
registry start with `SELECT` and have no semicolon, but the name of a table or of a field may read
`INTO`. So they are all let through exactly when no name does; otherwise there are accepted requests
whose statements are refused.
-/

namespace SnapshotAnalytics

open Text

/-! ## §1 Names that read as a keyword -/

/-- A name that reads `INTO` in upper case. -/
def Guard.readsInto (name : String) : Bool :=
  upper name.toList == "INTO".toList

/-- Whether the name of a table or of one of its fields reads `INTO`. -/
def TableSchema.readsInto (t : TableSchema) : Bool :=
  Guard.readsInto t.name || t.fields.any fun field => Guard.readsInto field.1

variable {tables : TableRegistry} {t : TableSchema} {s : Select}

/-- What a text has in upper case it has in the upper case of one of its characters. -/
theorem mem_upper {word upper' : List Char} (hword : upper word = upper') {c c' : Char}
    (hc : c ∈ word) (hupper : c' ∈ upperChar c) : c' ∈ upper' :=
  hword ▸ List.mem_flatMap.mpr ⟨c, hc, hupper⟩

/-- Of the words of statements only names read `INTO`. -/
theorem Vocabulary.readsInto {word : List Char} (h : Vocabulary t word)
    (hword : upper word = "INTO".toList) : t.readsInto = true := by
  have hkeywords : ∀ word ∈ keywords, upper word.toList ≠ "INTO".toList := by decide
  have hfunctions : ∀ word ∈ functions, upper word.toList ≠ "INTO".toList := by decide
  have hlabels : ∀ word ∈ labels, upper word.toList ≠ "INTO".toList := by decide
  have hsigns : ∀ c ∈ signs, Text.isWordingChar c = true := List.all_eq_true.mp (by decide)
  -- No fixed word reads so. An alias begins with a `v`, and other words are names.
  cases h with
  | keyword h => exact absurd hword (hkeywords _ h)
  | function h => exact absurd hword (hfunctions _ h)
  | label h => exact absurd hword (hlabels _ h)
  | figure i =>
    have hfirst : 'v' ∈ (s!"value{i}").toList := by
      rw [show (s!"value{i}").toList = "value".toList ++ (toString i).toList from
        String.toList_append]
      exact List.mem_append_left _ (by decide)
    have hv : 'V' ∈ "INTO".toList := mem_upper hword hfirst (by decide)
    exact absurd hv (by decide)
  | number n =>
    obtain ⟨c, hc⟩ : ∃ c, c ∈ (toString n).toList := by
      apply List.exists_mem_of_ne_nil
      rw [Nat.toString_eq_repr, Nat.toList_repr]
      exact Nat.toDigits_ne_nil
    have hdigit := isDigit_toString n c hc
    have hplain : c.toNat < 128 := toNat_lt_of_isAlphanum (by simp [Char.isAlphanum, hdigit])
    have hletter := forall_ascii (P := fun c => c.isDigit = true → c.toUpper ∉ "INTO".toList)
      (by decide) hplain hdigit
    refine absurd (mem_upper hword hc ?_) hletter
    rw [upperChar_of_ascii hplain]
    exact List.mem_singleton.mpr rfl
  | sign h =>
    have hplain := toNat_lt_of_isWordingChar (hsigns _ h)
    rw [upper_of_ascii (List.forall_mem_singleton.mpr hplain)] at hword
    exact absurd (congrArg List.length hword) (by simp)
  | table => simp [TableSchema.readsInto, Guard.readsInto, hword]
  | field h =>
    rw [TableSchema.readsInto, Bool.or_eq_true, List.any_eq_true]
    exact Or.inr ⟨_, h, by simp [Guard.readsInto, hword]⟩

/-! ## §2 What the guard finds in a statement -/

theorem Fragment.IsSound.ascii {f : Fragment} (hf : f.IsSound) : ∀ c ∈ f.chars, c.toNat < 128 := by
  intro c hc
  have hbraces : ∀ c ∈ ['\x7b', ':', '\x7d'], c.toNat < 128 := by simp
  rcases hf.mem_chars hc with hword | hbrace
  · exact toNat_lt_of_isWordingChar hword
  · exact hbraces c hbrace

/-- The keyword is found between blanks only where a name reads like it. -/
theorem Fragment.IsWritten.readsInto {f : Fragment} (hf : f.IsWritten t) (ht : t.Checked)
    (h : " INTO ".toList <:+: upper f.chars) : t.readsInto = true := by
  have hascii := (hf.isSound ht).ascii
  rw [upper_of_ascii hascii] at h
  obtain ⟨part, ⟨before, behind, hparts⟩, hpart⟩ := List.infix_map_iff.mp h
  have hplain : ∀ c ∈ part, c.toNat < 128 := by
    intro c hc
    apply hascii
    rw [← hparts]
    simp [hc]
  -- The part has blanks at its ends, so what is between them is a token.
  obtain ⟨first, rest, rfl, hfirst, hrest⟩ := List.map_eq_cons_iff.mp hpart.symm
  obtain ⟨word, ends, rfl, hword, hends⟩ := List.map_eq_append_iff.mp
    (show rest.map Char.toUpper = "INTO".toList ++ [' '] from hrest)
  obtain ⟨last, rfl, hlast⟩ := List.map_eq_singleton_iff.mp hends
  obtain rfl := toUpper_eq_blank (hplain first (by simp)) hfirst
  obtain rfl := toUpper_eq_blank (hplain last (by simp)) hlast
  have hletters : ∀ c ∈ word, isIdentifierPart c = true := by
    intro c hc
    have hupper : c.toUpper ∈ "INTO".toList := hword ▸ List.mem_map_of_mem hc
    have hletter : ∀ c ∈ "INTO".toList, c.isAlpha = true := by simp
    have halpha := isAlpha_of_toUpper (hplain c (by simp [hc])) (hletter _ hupper)
    simp [isIdentifierPart, Char.isAlphanum, halpha]
  have hne : word ≠ [] := by
    rintro rfl
    cases hword
  have htoken : word ∈ tokens f.chars := by
    have hmem := mem_tokens_of_blanks hne hletters before behind
    simpa [← hparts] using hmem
  rcases hf.mem_tokens htoken with hvocabulary | ⟨p, _, rfl⟩
  · apply hvocabulary.readsInto
    rw [upper_of_ascii fun c hc => hplain c (by simp [hc]), hword]
  · -- No letter opens a placeholder.
    have hbrace : isIdentifierPart '\x7b' = true := hletters '\x7b' List.mem_cons_self
    simp [isIdentifierPart] at hbrace

/-- What is written in the words of a table has no semicolon. -/
theorem Fragment.IsSound.not_mem_semicolon {f : Fragment} (hf : f.IsSound) : ';' ∉ f.chars := by
  intro hmem
  have hchar := hf.mem_chars hmem
  revert hchar
  decide

/-- **A text that starts with `SELECT` and has no semicolon** can be refused for one reason only. -/
theorem Guard.check_of_select {sql : String} {rest : List Char}
    (hstart : sql.toList = "SELECT".toList ++ rest) (hsemicolon : ';' ∉ sql.toList) :
    Guard.check sql = if selectsInto (upper (trim sql.toList)) then
      .error (.invalidSql "SELECT INTO is not allowed") else .ok () := by
  have hreading : startsReading (upper (trim sql.toList)) = true := by
    have hword : ∀ c ∈ "SELECT".toList, isBlank c = false := by
      simp [isBlank, blankRanges]
    rw [hstart, trim_append (by decide) hword, upper_append]
    have hprefix : "SELECT".toList <+: upper "SELECT".toList ++ upper (dropEndWhile isBlank rest) :=
      List.prefix_append _ _
    rw [startsReading, List.isPrefixOf_iff_prefix.mpr hprefix, Bool.true_or]
  have hinner : hasInnerSemicolon (trim sql.toList) = false := by
    have hnone : ';' ∉ trim sql.toList := fun hmem => hsemicolon ((trim_isInfix _).mem hmem)
    simp [hasInnerSemicolon, hnone]
  simp only [check, hreading, hinner]
  simp

/-- Every statement over a registry starts with `SELECT`. -/
theorem Select.exists_chars (s : Select) : ∃ rest, s.query.sql.toList = "SELECT".toList ++ rest := by
  have hhead (columns : String) (f : Fragment) :
      ∃ rest, Fragment.chars (.text s!"SELECT {columns} FROM {s.table}" :: f) =
        "SELECT".toList ++ rest := by
    rw [Fragment.chars_text]
    simp only [String.toList_append, toString]
    exact ⟨_, by simp only [List.append_assoc]; rfl⟩
  rw [query, Fragment.query, Fragment.sql, String.toList_ofList]
  exact hhead _ _

namespace Statement

/-- A statement is let through unless the keyword is found in it. -/
theorem check_query (hregistered : tables.Registered) (h : Statement tables t s) :
    Guard.check s.query.sql =
      if Guard.selectsInto (upper (trim s.query.sql.toList)) then
        .error (.invalidSql "SELECT INTO is not allowed") else .ok () := by
  have hsound := ((h.isWritten hregistered).fragment (h.table hregistered).2).isSound
    (h.table hregistered).2
  obtain ⟨rest, hstart⟩ := s.exists_chars
  refine Guard.check_of_select hstart ?_
  rw [Select.query, Fragment.query, Fragment.sql, String.toList_ofList]
  exact hsound.not_mem_semicolon

/-- Without such a name every statement is let through. -/
theorem check_query_eq_ok (hregistered : tables.Registered) (h : Statement tables t s)
    (hname : t.readsInto = false) : Guard.check s.query.sql = .ok () := by
  have ht := (h.table hregistered).2
  have hwritten := (h.isWritten hregistered).fragment ht
  have hsql : s.query.sql.toList = s.fragment.chars := String.toList_ofList
  have hinto : ¬ Guard.selectsInto (upper (trim s.query.sql.toList)) = true := by
    intro hinto
    rw [Guard.selectsInto, Bool.and_eq_true, occurs_iff, hsql] at hinto
    have hkeyword : " INTO ".toList <:+: upper s.fragment.chars :=
      hinto.1.trans (upper_isInfix (trim_isInfix _))
    exact Bool.false_ne_true (hname.symm.trans (hwritten.readsInto ht hkeyword))
  rw [h.check_query hregistered, if_neg hinto]

end Statement

/-! ## §3 Refused statements -/

namespace RowsPlan

/-- The first rows of one column, checked. -/
def ofColumn (t : TableSchema) (column : String) : RowsPlan :=
  ⟨t, { RowsRequest.ofTable t.name with columns := [column] }, [column], RowsRequest.defaultLimit, []⟩

theorem prepare_ofColumn {column : String} (ht : tables.table t.name = .ok t)
    (hcolumn : t.require column = .ok ()) :
    prepare tables (ofColumn t column).request = .ok (ofColumn t column) := by
  have hcolumns : [column].forM t.require = .ok () :=
    Checks.forM_eq_ok.mpr (List.forall_mem_singleton.mpr hcolumn)
  simp only [prepare, Checks.bind_eq_ok, Checks.pure_eq_ok]
  exact ⟨t, ht, (), hcolumns, (), rfl, RowsRequest.defaultLimit, rfl, [], rfl, rfl⟩

/-- The words of their statement. -/
def columnWords (t : TableSchema) (column : String) (d : Date) : List (List Char) :=
  ["SELECT".toList, column.toList, "FROM".toList, t.name.toList, "WHERE".toList, t.dateColumn.toList,
    "=".toList, (t.dateParameter "snapshot" d).placeholder, "LIMIT".toList, "100".toList]

theorem chars_ofColumn (t : TableSchema) (column : String) (d : Date) :
    ((ofColumn t column).select d).query.sql.toList = [' '].intercalate (columnWords t column d) := by
  rw [Select.query, Fragment.query, Fragment.sql, String.toList_ofList]
  simp only [Select.fragment, select, ofColumn, Select.filtered, Select.clause, Select.bounds,
    TableSchema.dateCondition, Fragment.comparison, RowsRequest.ofTable, Predicate.conditions]
  simp [Fragment.joined, Selected.text, toString]
  rfl

theorem trim_ofColumn (t : TableSchema) (column : String) (d : Date) :
    trim ((ofColumn t column).select d).query.sql.toList =
      ((ofColumn t column).select d).query.sql.toList := by
  obtain ⟨rest, hstart⟩ := ((ofColumn t column).select d).exists_chars
  have hfirst : ((ofColumn t column).select d).query.sql.toList.head? = some 'S' := by
    rw [hstart]
    rfl
  have hlast : ((ofColumn t column).select d).query.sql.toList.getLast? = some '0' := by
    simp [chars_ofColumn, columnWords, List.getLast?_append, List.getLast?_cons]
  exact trim_eq_self_of_ends hfirst hlast (by decide) (by decide)

/-- There is no blank in these words, in upper case neither. -/
theorem blank_not_mem_columnWords {column : String} (ht : t.Checked)
    (hcolumn : isIdentifier column = true) (d : Date) :
    ∀ word ∈ (columnWords t column d).map upper, ' ' ∉ word := by
  have hfixed : ∀ word ∈ ["SELECT", "FROM", "WHERE", "=", "LIMIT", "100"],
      ' ' ∉ upper word.toList := by decide
  have hname : ' ' ∉ upper t.name.toList :=
    blank_not_mem_upper fun c hc => isIdentifierPart_of_isTableIdentifier ht.name hc
  have hfield {field : String} (hfield : isIdentifier field = true) : ' ' ∉ upper field.toList :=
    blank_not_mem_upper fun c hc => Or.inl (isIdentifierPart_of_isIdentifier hfield hc)
  -- A placeholder is fixed but for its type, of which there are two.
  have hdateColumn : isIdentifier t.dateColumn = true := by
    obtain ⟨field, hfield, hsame⟩ := ht.dateColumn
    exact hsame ▸ ht.fields field hfield
  have hdate : ' ' ∉ upper (t.dateParameter "snapshot" d).placeholder := by
    cases hencoding : t.encoding <;>
      simp only [TableSchema.dateParameter, hencoding, Parameter.placeholder] <;> decide
  simp only [List.forall_mem_cons, List.not_mem_nil, false_implies, implies_true, and_true] at hfixed
  obtain ⟨hselect, hfrom, hwhere, hequals, hlimit, hcount⟩ := hfixed
  simp only [columnWords, List.map_cons, List.map_nil, List.forall_mem_cons, List.not_mem_nil,
    false_implies, implies_true, and_true]
  exact ⟨hselect, hfield hcolumn, hfrom, hname, hwhere, hfield hdateColumn, hequals, hdate, hlimit,
    hcount⟩

/-- Of two neighbours one is a fixed word, which does not end with `INSERT` or start with `INTO`. -/
theorem isChain_columnWords (t : TableSchema) (column : String) (d : Date) :
    ((columnWords t column d).map upper).IsChain fun word word' =>
      ¬ ("INSERT".toList <:+ word ∧ "INTO".toList <+: word') := by
  have hleft : ∀ word ∈ ["SELECT", "FROM", "WHERE", "=", "LIMIT"],
      ¬ "INSERT".toList <:+ upper word.toList := by decide
  have hright : ∀ word ∈ ["FROM", "WHERE", "=", "LIMIT"],
      ¬ "INTO".toList <+: upper word.toList := by decide
  simp only [List.forall_mem_cons, List.not_mem_nil, false_implies, implies_true, and_true]
    at hleft hright
  obtain ⟨hselect, hfrom, hwhere, hequals, hlimit⟩ := hleft
  obtain ⟨hfrom', hwhere', hequals', hlimit'⟩ := hright
  simp only [columnWords, List.map_cons, List.map_nil, List.isChain_cons_cons]
  exact ⟨fun h => hselect h.1, fun h => hfrom' h.2, fun h => hfrom h.1, fun h => hwhere' h.2,
    fun h => hwhere h.1, fun h => hequals' h.2, fun h => hequals h.1, fun h => hlimit' h.2,
    fun h => hlimit h.1, List.isChain_singleton _⟩

/-- A statement for one column is refused if the column or the table reads `INTO`. -/
theorem selectsInto_ofColumn {column : String} (ht : t.Checked)
    (hcolumn : isIdentifier column = true) (d : Date)
    (h : Guard.readsInto t.name = true ∨ Guard.readsInto column = true) :
    Guard.selectsInto (upper (trim ((ofColumn t column).select d).query.sql.toList)) = true := by
  rw [trim_ofColumn, chars_ofColumn, upper_intercalate, Guard.selectsInto, Bool.and_eq_true,
    occurs_iff, Bool.not_eq_true', ← Bool.not_eq_true, occurs_iff]
  constructor
  · -- The keyword stands between blanks.
    rcases h with hinto | hinto
    · simp only [columnWords, List.map_cons, beq_iff_eq.mp hinto]
      exact infix_intercalate "INTO".toList [upper "SELECT".toList, upper column.toList] _
    · simp only [columnWords, List.map_cons, beq_iff_eq.mp hinto]
      exact infix_intercalate "INTO".toList [] _
  · apply not_infix_of_isChain (p := "INSERT".toList) (q := "INTO".toList)
    · decide
    · decide
    · exact blank_not_mem_columnWords ht hcolumn d
    · exact List.cons_ne_nil _ _
    · exact isChain_columnWords t column d

end RowsPlan

namespace Statement

/-- **The guard and the names of a table.** A statement over a registry is let through, or it is
refused for the keyword `INTO`. All statements over a table are let through, and sent, exactly when
neither the table nor one of its fields has a name that reads like it. -/
theorem guard_statements {m : Type → Type} [Monad m] (send : Transport m)
    (complaint : List Char → String) (c : Connection) (hregistered : tables.Registered)
    (ht : tables.table t.name = .ok t) :
    (∀ s, Statement tables t s → Guard.check s.query.sql = .ok () ∨
      Guard.check s.query.sql = .error (.invalidSql "SELECT INTO is not allowed")) ∧
    ((∀ s, Statement tables t s → Guard.check s.query.sql = .ok ()) ↔ t.readsInto = false) ∧
    (t.readsInto = false → ∀ s, Statement tables t s →
      Warehouse.execute send complaint c s.query = do
        let (reply, elapsedMs) ← send (c.request { s.query with sql := Warehouse.sentText s.query.sql })
        return Warehouse.body reply >>= Warehouse.readRows complaint elapsedMs) := by
  have hchecked := (hregistered.of_table ht).2
  refine ⟨fun s hs => ?_, ⟨fun hall => ?_, fun hname s hs => ?_⟩, fun hname s hs => ?_⟩
  · rw [hs.check_query hregistered]
    split
    · exact Or.inr rfl
    · exact Or.inl rfl
  · -- The rows of a column that reads like the keyword, or of any column of a table that does.
    by_contra hname
    obtain ⟨field, hfield, hinto⟩ : ∃ field ∈ t.fields,
        Guard.readsInto t.name = true ∨ Guard.readsInto field.1 = true := by
      rw [Bool.not_eq_false, TableSchema.readsInto, Bool.or_eq_true, List.any_eq_true] at hname
      rcases hname with htable | ⟨field, hfield, hinto⟩
      · obtain ⟨field, hfield, -⟩ := hchecked.dateColumn
        exact ⟨field, hfield, Or.inl htable⟩
      · exact ⟨field, hfield, Or.inr hinto⟩
    have hrequire : t.require field.1 = .ok () :=
      TableSchema.require_eq_ok_iff.mpr (List.mem_map_of_mem hfield)
    have hstates := Request.States.rows (RowsPlan.prepare_ofColumn ht hrequire)
    have hs : Statement tables t ((RowsPlan.ofColumn t field.1).select .epoch) := .report hstates .epoch
    have hrefused := hs.check_query hregistered
    rw [if_pos (RowsPlan.selectsInto_ofColumn hchecked (hchecked.fields _ hfield) _ hinto),
      hall _ hs] at hrefused
    cases hrefused
  · exact hs.check_query_eq_ok hregistered hname
  · -- What the guard lets through is sent, as no statement binds a name twice.
    have hparameters : Parameter.check s.query.parameters = .ok () :=
      Parameter.check_eq_ok.mpr
        ⟨(((hs.isWritten hregistered).fragment hchecked).isSound hchecked).isName, hs.nodup_names⟩
    simp only [Warehouse.execute, hs.check_query_eq_ok hregistered hname, hparameters]

theorem guard_statements_trades :
    TableRegistry.Registered [("trades", Engine.trades)] ∧
      TableRegistry.table [("trades", Engine.trades)] "trades" = .ok Engine.trades ∧
      Guard.check (tradesPlan.select .epoch).query.sql = .ok () := by
  have ht : TableRegistry.table [("trades", Engine.trades)] "trades" = .ok Engine.trades := rfl
  have hname : Engine.trades.readsInto = false := by decide
  have hpassed := guard_statements (t := Engine.trades) (m := Id) Transport.offline (fun _ => "")
    ⟨"", "", none, 60⟩ registered_trades ht
  exact ⟨registered_trades, ht, hpassed.2.1.mpr hname _ report_trades⟩

/-- Positions whose dates are in a column that reads like the keyword. -/
def intoPositions : TableSchema :=
  .ofDateColumn "positions" "into" .calendar

/-- The table is registered, and no snapshot of it can be looked for: the statement is refused. -/
theorem guard_refuses_into :
    TableRegistry.register [] intoPositions = .ok [("positions", intoPositions)] ∧
      Statement [("positions", intoPositions)] intoPositions
        (Resolution.select intoPositions .backward .epoch) ∧
      Guard.check (Resolution.select intoPositions .backward .epoch).query.sql =
        .error (.invalidSql "SELECT INTO is not allowed") := by
  have ht : TableRegistry.table [("positions", intoPositions)] "positions" = .ok intoPositions := rfl
  exact ⟨by decide, .resolution ht .backward .epoch, by decide⟩

end Statement

end SnapshotAnalytics

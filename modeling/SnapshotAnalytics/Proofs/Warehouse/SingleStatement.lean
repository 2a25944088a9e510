import SnapshotAnalytics.Proofs.Text.Ends
import SnapshotAnalytics.Proofs.Text.Splitting
import SnapshotAnalytics.Warehouse.Exchange

/-!
# How many statements are sent

In a text without quotes semicolons separate statements. The guard looks for a semicolon only when
the text does not end with one, and of a text that is let through the semicolons at its very end are
dropped before it is sent. So a text whose semicolons all stand at its end is sent as one statement,
and any other text that is let through is sent as several.
-/

namespace SnapshotAnalytics

/-! ## §1 Statements of a text -/

namespace Sql

/-- The statements of a text without quotes: what its semicolons separate, as far as it is not
blank. -/
def statements (s : List Char) : List (List Char) :=
  (Text.splitOn ';' s).filter fun piece => piece.any fun c => !Text.isBlank c

theorem statements_append (s t : List Char) :
    statements (s ++ ';' :: t) = statements s ++ statements t := by
  simp only [statements, Text.splitOn_eq, List.splitOn_append_cons_self, List.filter_append]

theorem statements_of_not_mem {s : List Char} (hs : ';' ∉ s) {c : Char} (hc : c ∈ s)
    (hblank : Text.isBlank c = false) : statements s = [s] := by
  rw [statements, Text.splitOn_of_not_mem hs]
  exact List.filter_cons_of_pos (List.any_eq_true.mpr ⟨c, hc, by simp [hblank]⟩)

/-- A character that is neither blank nor a semicolon is part of a statement. -/
theorem statements_ne_nil {s : List Char} {c : Char} (hc : c ∈ s) (hblank : Text.isBlank c = false)
    (hne : c ≠ ';') : statements s ≠ [] := by
  obtain ⟨piece, hpiece, hmem⟩ := Text.exists_mem_splitOn hne hc
  refine List.ne_nil_of_mem (List.mem_filter.mpr ⟨hpiece, ?_⟩)
  exact List.any_eq_true.mpr ⟨c, hmem, by simp [hblank]⟩

/-- A text that starts and ends with something other than a blank or a semicolon is one statement
exactly when it has no semicolon. -/
theorem length_statements_eq_one_iff {first last : Char} {rest s : List Char}
    (hs : s = first :: rest) (hlast : s.getLast? = some last)
    (hfirst : Text.isBlank first = false) (hfirst' : first ≠ ';')
    (hblank : Text.isBlank last = false) (hlast' : last ≠ ';') :
    (statements s).length = 1 ↔ ';' ∉ s := by
  have hmem : first ∈ s := hs ▸ List.mem_cons_self
  refine ⟨fun hone hsemicolon => ?_, fun hnone => ?_⟩
  · obtain ⟨before, after, hparts⟩ := List.append_of_mem hsemicolon
    have hbefore : first ∈ before := by
      cases before with
      | nil =>
        rw [hs, List.nil_append, List.cons_eq_cons] at hparts
        exact absurd hparts.1 hfirst'
      | cons c before =>
        rw [hs, List.cons_append, List.cons_eq_cons] at hparts
        exact hparts.1 ▸ List.mem_cons_self
    have hafter : last ∈ after := by
      rw [hparts, List.getLast?_append, List.getLast?_cons] at hlast
      cases after with
      | nil => exact absurd (Option.some.inj hlast).symm hlast'
      | cons c after => exact List.mem_of_getLast? hlast
    -- On each side of the semicolon there is something to execute, so there are two statements.
    have hpos := List.length_pos_iff.mpr (statements_ne_nil hbefore hfirst hfirst')
    have hpos' := List.length_pos_iff.mpr (statements_ne_nil hafter hblank hlast')
    rw [hparts, statements_append, List.length_append] at hone
    omega
  · rw [statements_of_not_mem hnone hmem hfirst]
    rfl

end Sql

/-! ## §2 What the guard lets through -/

/-- What does not end with a character occurs in a text no more with the character behind it. -/
theorem Text.occurs_concat {part : List Char} {c : Char} (hpart : part.getLast? ≠ some c)
    (s : List Char) : occurs part (s ++ [c]) = occurs part s := by
  have hprefix (s : List Char) : part.isPrefixOf (s ++ [c]) = part.isPrefixOf s := by
    rw [Bool.eq_iff_iff, List.isPrefixOf_iff_prefix, List.isPrefixOf_iff_prefix,
      List.prefix_concat_iff]
    refine ⟨fun h => h.resolve_left ?_, Or.inr⟩
    rintro rfl
    exact hpart List.getLast?_concat
  induction s with
  | nil =>
    rw [List.nil_append, occurs, occurs, ← List.nil_append [c], hprefix]
    cases part <;> rfl
  | cons c' s ih =>
    rw [List.cons_append, occurs, ih, ← List.cons_append, hprefix, occurs]

namespace Guard

theorem check_eq_ok_iff (sql : String) :
    check sql = .ok () ↔
      startsReading (Text.upper (Text.trim sql.toList)) = true ∧
        selectsInto (Text.upper (Text.trim sql.toList)) = false ∧
          hasInnerSemicolon (Text.trim sql.toList) = false := by
  simp only [check]
  cases startsReading (Text.upper (Text.trim sql.toList)) <;>
    cases selectsInto (Text.upper (Text.trim sql.toList)) <;>
      cases hasInnerSemicolon (Text.trim sql.toList) <;> simp

/-- A text that is let through starts with something other than a semicolon. -/
theorem exists_cons_of_startsReading {trimmed : List Char}
    (h : startsReading (Text.upper trimmed) = true) :
    ∃ first rest, trimmed = first :: rest ∧ first ≠ ';' := by
  cases trimmed with
  | nil => exact absurd h (by decide)
  | cons first rest =>
    refine ⟨first, rest, rfl, ?_⟩
    rintro rfl
    have hupper : Text.upper (';' :: rest) = ';' :: Text.upper rest := by
      simp [Text.upper, show Text.upperChar ';' = [';'] by decide]
    rw [hupper] at h
    simp [startsReading] at h

/-- The guard finds a semicolon that is not at the end of a text unless the text ends with one. -/
theorem getLast?_of_hasInnerSemicolon {trimmed : List Char} (hmem : ';' ∈ trimmed)
    (h : hasInnerSemicolon trimmed = false) : trimmed.getLast? = some ';' := by
  simpa [hasInnerSemicolon, hmem] using h

/-- **A semicolon at the end lets several statements through**: a query that is refused for its
semicolons is let through with one more of them. -/
theorem check_semicolon {sql : String}
    (h : check sql = .error (.invalidSql "multiple statements not allowed")) :
    check (String.ofList (Text.trim sql.toList ++ [';'])) = .ok () := by
  obtain ⟨hstarts, hinto⟩ :
      startsReading (Text.upper (Text.trim sql.toList)) = true ∧
        selectsInto (Text.upper (Text.trim sql.toList)) = false := by
    simp only [check] at h
    cases hstarts : startsReading (Text.upper (Text.trim sql.toList)) <;>
      cases hinto : selectsInto (Text.upper (Text.trim sql.toList)) <;> simp_all
  obtain ⟨first, rest, htrim, -⟩ := exists_cons_of_startsReading hstarts
  -- The semicolon that is added stands at the end, where the check allows one.
  have htrim' : Text.trim (Text.trim sql.toList ++ [';']) = Text.trim sql.toList ++ [';'] :=
    Text.trim_eq_self_of_ends (by rw [htrim]; rfl) List.getLast?_concat
      (Text.isBlank_of_trim_eq_cons htrim) (by decide)
  have hupper : Text.upper (Text.trim sql.toList ++ [';']) =
      Text.upper (Text.trim sql.toList) ++ [';'] := List.flatMap_append
  rw [check_eq_ok_iff, String.toList_ofList, htrim', hupper]
  refine ⟨?_, ?_, by simp [hasInnerSemicolon]⟩
  · simp only [startsReading, Bool.or_eq_true, List.isPrefixOf_iff_prefix] at hstarts ⊢
    exact hstarts.imp (·.trans (List.prefix_append _ _)) (·.trans (List.prefix_append _ _))
  · rwa [selectsInto, Text.occurs_concat (by decide), Text.occurs_concat (by decide)]

end Guard

/-! ## §3 What is sent -/

namespace Warehouse

/-- **Texts that are sent as one statement.** A query that is let through is sent once. The text that
is sent is a single statement exactly when every semicolon of the query is followed by semicolons
alone; so it is one whenever the query does not end with a semicolon. -/
theorem execute_statements {m : Type → Type} [Monad m] (send : Transport m)
    (complaint : List Char → String) (c : Connection) {q : Query} (hguard : Guard.check q.sql = .ok ())
    (hparameters : Parameter.check q.parameters = .ok ()) :
    execute send complaint c q = (do
        let (reply, elapsedMs) ← send (c.request { q with sql := sentText q.sql })
        return body reply >>= readRows complaint elapsedMs) ∧
      ((Sql.statements (sentText q.sql).toList).length = 1 ↔
        ∀ before after, Text.trim q.sql.toList = before ++ ';' :: after → ∀ c ∈ after, c = ';') ∧
      ((Text.trim q.sql.toList).getLast? ≠ some ';' →
        (Sql.statements (sentText q.sql).toList).length = 1) := by
  obtain ⟨hstarts, -, hinner⟩ := (Guard.check_eq_ok_iff q.sql).mp hguard
  obtain ⟨first, rest, htrim, hfirst⟩ := Guard.exists_cons_of_startsReading hstarts
  have hblank : Text.isBlank first = false := Text.isBlank_of_trim_eq_cons htrim
  have hsent : (sentText q.sql).toList =
      first :: (Text.dropEndWhile (· = ';') rest ++ " FORMAT JSONEachRow".toList) := by
    rw [sentText, htrim, Text.dropEndWhile_cons (decide_eq_false hfirst), String.toList_ofList]
    rfl
  -- Behind the query stands the format, which ends with a letter.
  have hend : (sentText q.sql).toList.getLast? = some 'w' := by
    rw [hsent, ← List.cons_append, List.getLast?_append]
    rfl
  have hone : (Sql.statements (sentText q.sql).toList).length = 1 ↔
      ';' ∉ Text.dropEndWhile (· = ';') (Text.trim q.sql.toList) := by
    rw [Sql.length_statements_eq_one_iff hsent hend hblank hfirst (by decide) (by decide), hsent,
      htrim, Text.dropEndWhile_cons (decide_eq_false hfirst)]
    simp
  refine ⟨?_, ?_, fun hlast => ?_⟩
  · simp only [execute, hguard, hparameters]
  · rw [hone, Text.mem_dropEndWhile_iff (decide_eq_true rfl)]
    simp
  · rw [hone]
    intro hmem
    -- A semicolon that was kept would stand inside of the query, where none was let through.
    have hkept : Text.dropEndWhile (· = ';') (Text.trim q.sql.toList) <+: Text.trim q.sql.toList :=
      List.rdropWhile_prefix _ _
    exact hlast (Guard.getLast?_of_hasInnerSemicolon (hkept.mem hmem) hinner)

/-- A query with blanks at its ends, two semicolons behind it and a parameter. -/
def deskQuery : Query :=
  ⟨" SELECT amount FROM positions WHERE desk = \x7bp0:String\x7d;;\n", [⟨"p0", .string, "Rates"⟩]⟩

theorem execute_statements_desk :
    Guard.check deskQuery.sql = .ok () ∧ Parameter.check deskQuery.parameters = .ok () ∧
      (Sql.statements (sentText deskQuery.sql).toList).length = 1 := by
  have hguard : Guard.check deskQuery.sql = .ok () := by decide
  have hparameters : Parameter.check deskQuery.parameters = .ok () := by decide
  have hdropped : ';' ∉ Text.dropEndWhile (· = ';') (Text.trim deskQuery.sql.toList) := by decide
  refine ⟨hguard, hparameters, ?_⟩
  rw [(execute_statements (m := Id) Transport.offline (fun _ => "") ⟨"", "", none, 60⟩ hguard
    hparameters).2.1]
  intro before after htrim c hc
  by_contra hne
  have hbehind : ∃ c ∈ after, decide (c = ';') = false := ⟨c, hc, decide_eq_false hne⟩
  exact hdropped ((Text.mem_dropEndWhile_iff (decide_eq_true rfl)).mpr ⟨before, after, htrim, hbehind⟩)

/-- Two statements with a semicolon at the end. -/
def dropQuery : Query :=
  ⟨"SELECT 1; DROP TABLE positions;", []⟩

/-- A text without quotes that is let through and sent as two statements. -/
theorem second_statement_sent :
    dropQuery.sql.toList.all (fun c => c != '\'' && c != '"') = true ∧
      Guard.check dropQuery.sql = .ok () ∧ Parameter.check dropQuery.parameters = .ok () ∧
      Sql.statements (sentText dropQuery.sql).toList =
        ["SELECT 1".toList, " DROP TABLE positions FORMAT JSONEachRow".toList] := by
  decide

end Warehouse

end SnapshotAnalytics

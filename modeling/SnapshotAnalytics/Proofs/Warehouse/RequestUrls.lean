import SnapshotAnalytics.Proofs.Data.Readings
import SnapshotAnalytics.Proofs.Query.Bindings
import SnapshotAnalytics.Proofs.Text.Percent
import SnapshotAnalytics.Proofs.Text.Splitting
import SnapshotAnalytics.Warehouse.Exchange

/-!
# Arguments of request URLs

The query part of a URL is cut at ampersands into arguments, and an argument at its first equals sign
into a name and a value, which is percent-decoded. From the URL of a request the arguments are read
that it was made from, whatever characters the values have: names are plain, and an encoded value has
no sign that separates anything.
-/

namespace SnapshotAnalytics

/-! ## §1 Reading arguments -/

namespace Text

/-- The name and the value of an argument: the value is percent-decoded. -/
def urlArgument? (s : List Char) : Option (String × String) := do
  let (name, value) ← cutAt? '=' s
  return (String.ofList name, ← percentDecode? value)

/-- The arguments in the query part of a URL. -/
def urlArguments? (s : List Char) : Option (List (String × String)) :=
  (splitOn '&' s).mapM urlArgument?

theorem cutAt?_append {separator : Char} {front : List Char} (h : separator ∉ front)
    (rest : List Char) : cutAt? separator (front ++ separator :: rest) = some (front, rest) := by
  induction front with
  | nil => exact if_pos rfl
  | cons c front ih =>
    have hc : c ≠ separator := Ne.symm (List.ne_of_not_mem_cons h)
    rw [List.cons_append, cutAt?, if_neg hc, ih (List.not_mem_of_not_mem_cons h), Option.map_some]

end Text

namespace Connection

open Text

/-- A character of the query part of a request URL. -/
def isQueryChar (c : Char) : Bool :=
  isUnreserved c || "%&=".toList.contains c

/-! ## §2 Written arguments -/

/-- A name that is made of letters, digits and underscores. -/
def IsPlainName (name : List Char) : Prop :=
  ∀ c ∈ name, Parameter.isNameChar c = true

theorem isUnreserved_of_isNameChar {c : Char} (hc : Parameter.isNameChar c = true) :
    isUnreserved c = true := by
  simp only [Parameter.isNameChar, isUnreserved, Bool.or_eq_true] at hc ⊢
  tauto

variable {argument : List Char × List Char}

/-- An argument is written in characters that stand for themselves, percent signs and one equals sign. -/
theorem mem_argumentText (hname : IsPlainName argument.1) {c : Char} (hc : c ∈ argumentText argument) :
    isUnreserved c = true ∨ c = '%' ∨ c = '=' := by
  rcases List.mem_append.mp hc with hc | hc
  · exact Or.inl (isUnreserved_of_isNameChar (hname c hc))
  · rcases List.mem_cons.mp hc with rfl | hc
    · exact Or.inr (Or.inr rfl)
    · exact (mem_percentEncode hc).imp_right Or.inl

theorem ampersand_not_mem_argumentText (hname : IsPlainName argument.1) :
    '&' ∉ argumentText argument := by
  intro hmem
  have hchar := mem_argumentText hname hmem
  revert hchar
  decide

/-- An argument is read back: its name ends at the first equals sign, and its value is decoded. -/
theorem urlArgument?_argumentText (hname : IsPlainName argument.1) :
    urlArgument? (argumentText argument) =
      some (String.ofList argument.1, String.ofList argument.2) := by
  have hequals : '=' ∉ argument.1 := by
    intro hmem
    have hchar := hname '=' hmem
    revert hchar
    decide
  simp only [urlArgument?, argumentText, cutAt?_append hequals, Option.bind_eq_bind,
    Option.bind_some, percentDecode?_percentEncode, Option.pure_def]

/-! ## §3 Request URLs -/

variable (c : Connection) {q : Query}

/-- The names of arguments are plain if those of the parameters are. -/
theorem isPlainName_arguments (h : Parameter.check q.parameters = .ok ()) :
    ∀ argument ∈ c.arguments q, IsPlainName argument.1 := by
  have hfixed : ["database", "max_execution_time", "query", "param_"].all
      (fun name => name.toList.all Parameter.isNameChar) = true := by decide
  simp only [List.all_eq_true, List.forall_mem_cons, List.not_mem_nil, false_implies, implies_true,
    and_true] at hfixed
  obtain ⟨hdatabase, hlimit, hquery, hparam⟩ := hfixed
  intro argument hargument
  simp only [arguments, List.cons_append, List.mem_cons, List.mem_append, List.mem_map,
    List.not_mem_nil, or_false] at hargument
  -- Three names are fixed. The others are those of parameters, behind a fixed prefix.
  rcases hargument with rfl | rfl | ⟨p, hp, rfl⟩ | rfl
  · exact hdatabase
  · exact hlimit
  · intro ch hch
    rcases List.mem_append.mp hch with hch | hch
    · exact hparam ch hch
    · have hname := (Parameter.check_eq_ok.mp h).1 p hp
      rw [Parameter.isName, Bool.and_eq_true, List.all_eq_true] at hname
      exact hname.2 ch hch
  · exact hquery

/-- The arguments of a request as texts. -/
theorem map_arguments (q : Query) :
    (c.arguments q).map (fun argument => (String.ofList argument.1, String.ofList argument.2)) =
      ("database", c.database) :: ("max_execution_time", toString c.maxExecutionTime)
        :: q.parameters.map (fun p => ("param_" ++ p.name, p.value)) ++ [("query", q.sql)] := by
  have hlimit : String.ofList (Nat.toDigits 10 c.maxExecutionTime) = toString c.maxExecutionTime := by
    rw [Nat.toString_eq_repr, ← Nat.toList_repr, String.ofList_toList]
  have hparameter (p : Parameter) :
      String.ofList ("param_".toList ++ p.name.toList) = "param_" ++ p.name := by
    rw [← String.toList_append, String.ofList_toList]
  simp only [arguments, List.map_cons, List.map_append, List.map_map, Function.comp_def, hlimit,
    hparameter, String.ofList_toList, List.map_nil]

/-- **Request URLs decode back.** Behind the URL of the warehouse and `/?` stands a text from which
exactly the arguments of the request are read: the database, the time limit, each parameter in its
place, and the query. No value brings in a character that a URL gives a meaning to. -/
theorem urlArguments?_queryUrl (h : Parameter.check q.parameters = .ok ()) :
    ∃ text, (c.queryUrl q).toList = dropEndWhile (· = '/') c.url.toList ++ "/?".toList ++ text ∧
      urlArguments? text = some
        (("database", c.database) :: ("max_execution_time", toString c.maxExecutionTime)
          :: q.parameters.map (fun p => ("param_" ++ p.name, p.value)) ++ [("query", q.sql)]) ∧
      ∀ ch ∈ text, isQueryChar ch = true := by
  have hnames := c.isPlainName_arguments h
  have hpieces : ∀ piece ∈ (c.arguments q).map argumentText, '&' ∉ piece := by
    intro piece hpiece
    obtain ⟨argument, hargument, rfl⟩ := List.mem_map.mp hpiece
    exact ampersand_not_mem_argumentText (hnames argument hargument)
  have hne : (c.arguments q).map argumentText ≠ [] :=
    List.map_eq_nil_iff.not.mpr (List.cons_ne_nil _ _)
  refine ⟨['&'].intercalate ((c.arguments q).map argumentText), ?_, ?_, fun ch hch => ?_⟩
  · rw [queryUrl, String.toList_ofList, base, List.append_assoc]
    rfl
  · -- No argument holds an ampersand, so cutting at ampersands gives the arguments back.
    have hread : (c.arguments q).mapM (urlArgument? ∘ argumentText) =
        some ((c.arguments q).map fun argument => (String.ofList argument.1, String.ofList argument.2)) :=
      Readings.mapM_eq_some_map fun argument hargument =>
        urlArgument?_argumentText (hnames argument hargument)
    rw [urlArguments?, splitOn_intercalate hpieces hne, List.mapM_map, hread, map_arguments]
  · rcases mem_intercalate hch with hseparator | ⟨piece, hpiece, hch⟩
    · rw [List.mem_singleton.mp hseparator]
      decide
    · obtain ⟨argument, hargument, rfl⟩ := List.mem_map.mp hpiece
      rcases mem_argumentText (hnames argument hargument) hch with hplain | rfl | rfl
      · rw [isQueryChar, hplain, Bool.true_or]
      · decide
      · decide

/-- A connection whose database is named like the end of one argument and the start of another. -/
def financeConnection : Connection :=
  ⟨"http://ch:8123//", "finance&query=SELECT 2", none, 30⟩

/-- A query whose values are full of characters with a meaning in URLs. -/
def reservedQuery : Query :=
  ⟨"SELECT amount FROM positions WHERE desk = \x7bp0_0:String\x7d AND rate < 5%2",
    [⟨"p0_0", .string, "a&param_p0_1=%26#+ ?é😀"⟩, ⟨"p0_1", .string, ""⟩]⟩

theorem urlArguments?_queryUrl_reserved :
    Parameter.check reservedQuery.parameters = .ok () ∧
      ∃ text, (financeConnection.queryUrl reservedQuery).toList = "http://ch:8123/?".toList ++ text ∧
        urlArguments? text = some
          [("database", "finance&query=SELECT 2"), ("max_execution_time", "30"),
            ("param_p0_0", "a&param_p0_1=%26#+ ?é😀"), ("param_p0_1", ""),
            ("query", reservedQuery.sql)] := by
  have hcheck : Parameter.check reservedQuery.parameters = .ok () := by decide
  obtain ⟨text, htext, hread, -⟩ := urlArguments?_queryUrl financeConnection hcheck
  have hbase : dropEndWhile (· = '/') financeConnection.url.toList = "http://ch:8123".toList := by
    decide
  refine ⟨hcheck, text, ?_, hread⟩
  rw [htext, hbase]
  rfl

end Connection

end SnapshotAnalytics

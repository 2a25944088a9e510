import SnapshotAnalytics.Cache.Key
import SnapshotAnalytics.Proofs.Report.Statements
import SnapshotAnalytics.Proofs.Text.Bytes
import SnapshotAnalytics.Proofs.Text.Hexadecimal
import SnapshotAnalytics.Proofs.Text.Splitting

/-!
# What derived keys tell apart

A derived key is the digest of the text of a query and of the names, types and values of its
parameters, with a zero character between any two of them. Nothing keeps values from having zero
characters of their own, so all that the key shows are the pieces between zero characters. Queries
without zero characters are told apart, and so are the statements of listings as long as the values
of one of them are free of zero characters; two listings whose values are not can share a key.
-/

namespace SnapshotAnalytics

/-! ## §1 Texts of a query -/

namespace Parameter

/-- The texts that a parameter puts into a key. -/
def texts (p : Parameter) : List (List Char) :=
  [p.name.toList, p.type.name.toList, p.value.toList]

theorem texts_injective : Function.Injective texts := by
  intro p p' h
  simp only [texts, List.cons.injEq, String.toList_inj, and_true] at h
  obtain ⟨name, type, value⟩ := p
  obtain ⟨hname, htype, hvalue⟩ := h
  cases hname
  cases ParameterType.name_injective htype
  cases hvalue
  rfl

theorem flatMap_texts_injective :
    Function.Injective fun ps : List Parameter => ps.flatMap texts := by
  intro ps
  induction ps with
  | nil =>
    intro ps' h
    cases ps' with
    | nil => rfl
    | cons p' ps' => cases h
  | cons p ps ih =>
    intro ps' h
    cases ps' with
    | nil => cases h
    | cons p' ps' =>
      -- Every parameter has three texts, so the first three are those of the first parameter.
      have hsplit : p.texts ++ ps.flatMap texts = p'.texts ++ ps'.flatMap texts := h
      obtain ⟨hp, hps⟩ := List.append_inj hsplit rfl
      rw [texts_injective hp, ih hps]

theorem length_flatMap_texts (ps : List Parameter) : (ps.flatMap texts).length = 3 * ps.length := by
  induction ps with
  | nil => rfl
  | cons p ps ih =>
    rw [List.flatMap_cons, List.length_append, ih, List.length_cons]
    exact Nat.add_comm 3 _

end Parameter

namespace Query

/-- The texts that a query puts into a key. -/
def texts (q : Query) : List (List Char) :=
  q.sql.toList :: q.parameters.flatMap Parameter.texts

/-- The pieces of these texts between zero characters. -/
def pieces (q : Query) : List (List Char) :=
  q.texts.flatMap (Text.splitOn '\x00')

/-- A query without zero characters. -/
def IsPlain (q : Query) : Prop :=
  ∀ s ∈ q.texts, '\x00' ∉ s

/-- A query whose values have no zero characters. -/
def HasPlainValues (q : Query) : Prop :=
  ∀ p ∈ q.parameters, '\x00' ∉ p.value.toList

instance (q : Query) : Decidable q.HasPlainValues :=
  List.decidableBAll (fun p : Parameter => '\x00' ∉ p.value.toList) q.parameters

theorem texts_ne_nil (q : Query) : q.texts ≠ [] :=
  List.cons_ne_nil _ _

theorem length_texts (q : Query) : q.texts.length = 3 * q.parameters.length + 1 := by
  rw [texts, List.length_cons, Parameter.length_flatMap_texts]

/-- A query is determined by its texts. -/
theorem texts_injective : Function.Injective texts := by
  intro q q' h
  obtain ⟨sql, ps⟩ := q
  obtain ⟨hsql, hparameters⟩ := List.cons.inj h
  cases String.toList_inj.mp hsql
  cases Parameter.flatMap_texts_injective hparameters
  rfl

theorem IsPlain.pieces_eq {q : Query} (hq : q.IsPlain) : q.pieces = q.texts :=
  Text.flatMap_splitOn_of_not_mem hq

/-- A query without zero characters is told apart from all queries with as many parameters. -/
theorem IsPlain.eq_of_pieces_eq {q q' : Query} (hq : q.IsPlain)
    (hlength : q.parameters.length = q'.parameters.length) (h : q.pieces = q'.pieces) : q = q' := by
  -- The other query cannot have zero characters: they would make for more pieces.
  have hcount : q'.pieces.length = q'.texts.length := by
    rw [← h, hq.pieces_eq, length_texts, length_texts, hlength]
  have hpieces : q'.pieces = q'.texts := Text.flatMap_splitOn_of_length_eq hcount
  exact texts_injective (by rw [← hq.pieces_eq, h, hpieces])

end Query

/-! ## §2 Keys of queries -/

namespace CacheKey

/-- What is digested are the bytes of the texts with zero characters between them. -/
theorem material_eq (q : Query) : material q = Text.utf8 (['\x00'].intercalate q.texts) := by
  -- Every parameter adds three texts, each with a zero character before it.
  have hjoined (s : List Char) (ps : List Parameter) :
      Text.utf8 (['\x00'].intercalate (s :: ps.flatMap Parameter.texts)) =
        Text.utf8 s ++ ps.flatMap parameterMaterial := by
    induction ps generalizing s with
    | nil => simp
    | cons p ps ih =>
      have hzero (t : List Char) : Text.utf8 ('\x00' :: t) = 0 :: Text.utf8 t := rfl
      simp only [List.flatMap_cons, Parameter.texts, List.cons_append, List.nil_append,
        List.intercalate_cons_cons, List.append_assoc, Text.utf8_append, hzero, ih,
        parameterMaterial, Text.bytes]
  exact (hjoined q.sql.toList q.parameters).symm

/-- The material of a key shows the pieces of a query, and nothing else of it. -/
theorem material_eq_iff {q q' : Query} : material q = material q' ↔ q.pieces = q'.pieces := by
  rw [material_eq, material_eq, Text.utf8_injective.eq_iff]
  exact Text.intercalate_eq_iff q.texts_ne_nil q'.texts_ne_nil

theorem sha256_eq_of_derived_eq {q q' : Query} (h : derived q = derived q') :
    Digest.sha256 (material q) = Digest.sha256 (material q') := by
  -- Both keys start with the same two characters, and digests are their digits.
  have hdigests : Digest.hexDigest (material q) = Digest.hexDigest (material q') := by
    rw [derived, derived, ← String.toList_inj, String.toList_append, String.toList_append] at h
    exact String.toList_inj.mp (List.append_cancel_left h)
  exact Text.hex_inj (String.ofList_injective hdigests)

end CacheKey

/-! ## §3 Keys of listings -/

namespace Listing.Sent

variable {tables tables' : TableRegistry} {q q' : Query}

theorem zero_not_mem_sql (htables : tables.Registered) (h : Sent tables q) :
    '\x00' ∉ q.sql.toList := by
  obtain ⟨f, hf, rfl⟩ := h.exists_isSound htables
  intro hzero
  rw [Fragment.query, Fragment.sql, String.toList_ofList] at hzero
  rcases hf.mem_chars hzero with hword | hsign
  · exact absurd hword (by decide)
  · exact absurd hsign (by decide)

/-- The statement of a listing is plain if its values are. -/
theorem isPlain (htables : tables.Registered) (h : Sent tables q) (hvalues : q.HasPlainValues) :
    q.IsPlain := by
  refine List.forall_mem_cons.mpr ⟨h.zero_not_mem_sql htables, ?_⟩
  obtain ⟨f, hf, rfl⟩ := h.exists_isSound htables
  intro s hs
  obtain ⟨p, hp, hs⟩ := List.mem_flatMap.mp hs
  have hname : '\x00' ∉ p.name.toList :=
    fun hc => absurd (Parameter.isNameChar_of_mem (hf.isName p hp) hc) (by decide)
  have htype : '\x00' ∉ p.type.name.toList :=
    fun hc => absurd (Parameter.isNameChar_of_mem_typeName hc) (by decide)
  simp only [Parameter.texts, List.mem_cons, List.not_mem_nil, or_false] at hs
  -- Names and types are made of plain characters; values are plain by assumption.
  rcases hs with rfl | rfl | rfl
  · exact hname
  · exact htype
  · exact hvalues p hp

theorem sql_eq_of_pieces_eq (htables : tables.Registered) (htables' : tables'.Registered)
    (h : Sent tables q) (h' : Sent tables' q') (hpieces : q.pieces = q'.pieces) :
    q.sql = q'.sql := by
  rw [Query.pieces, Query.pieces, Query.texts, Query.texts, List.flatMap_cons, List.flatMap_cons,
    Text.splitOn_of_not_mem (h.zero_not_mem_sql htables),
    Text.splitOn_of_not_mem (h'.zero_not_mem_sql htables')] at hpieces
  exact String.toList_inj.mp (List.cons.inj hpieces).1

theorem headers_eq_of_sql_eq (htables : tables.Registered) (htables' : tables'.Registered)
    (h : Sent tables q) (h' : Sent tables' q') (hsql : q.sql = q'.sql) :
    q.parameters.map Parameter.header = q'.parameters.map Parameter.header := by
  obtain ⟨f, hf, rfl⟩ := h.exists_isSound htables
  obtain ⟨g, hg, rfl⟩ := h'.exists_isSound htables'
  exact hf.headers_eq_of_sql_eq hg hsql

end Listing.Sent

/-! ## §4 Soundness and its limits -/

/-- **What derived keys tell apart**, as long as the digests of the two queries do not collide. Two
queries share a key exactly when their pieces between zero characters are the same; so queries without
zero characters are told apart. Two statements of listings share a key only if they have the same text
and bind the same names and types, and not if the values of one of them are free of zero characters,
unless they are the same. -/
theorem CacheKey.derived_tells_apart (q q' : Query)
    (hdigest : Digest.sha256 (material q) = Digest.sha256 (material q') → material q = material q') :
    (derived q = derived q' ↔ q.pieces = q'.pieces) ∧
      (q.IsPlain → q'.IsPlain → derived q = derived q' → q = q') ∧
      ∀ tables tables' : TableRegistry, tables.Registered → tables'.Registered →
        Listing.Sent tables q → Listing.Sent tables' q' → derived q = derived q' →
          q.sql = q'.sql ∧
            q.parameters.map Parameter.header = q'.parameters.map Parameter.header ∧
            (q.HasPlainValues → q = q') := by
  have hpieces : derived q = derived q' ↔ q.pieces = q'.pieces := by
    rw [← material_eq_iff]
    exact ⟨fun h => hdigest (sha256_eq_of_derived_eq h), fun h => by rw [derived, derived, h]⟩
  refine ⟨hpieces, ?_, ?_⟩
  · intro hq hq' h
    have htexts : q.texts = q'.texts := by
      rw [← hq.pieces_eq, ← hq'.pieces_eq, hpieces.mp h]
    exact Query.texts_injective htexts
  · -- The text of a listing is free of zero characters, so it is the first piece; with it the names
    -- and the types are given, and with them the number of texts.
    intro tables tables' htables htables' hsent hsent' h
    have hsql := hsent.sql_eq_of_pieces_eq htables htables' hsent' (hpieces.mp h)
    have hheaders := hsent.headers_eq_of_sql_eq htables htables' hsent' hsql
    refine ⟨hsql, hheaders, ?_⟩
    intro hvalues
    have hlength : q.parameters.length = q'.parameters.length := by
      rw [← List.length_map Parameter.header, hheaders, List.length_map]
    exact (hsent.isPlain htables hvalues).eq_of_pieces_eq hlength (hpieces.mp h)

/-! Pages of a table of positions, for two desks: the first pair of texts has no zero characters, in
the other pairs one of the texts contains what stands before the second value. -/

namespace DeskRows

/-- A table of positions. -/
def table : TableSchema :=
  (TableSchema.ofDateColumn "positions" "day" .calendar).withField "desk" .text

/-- The registry of that table. -/
def tables : TableRegistry :=
  [("positions", table)]

theorem tables_registered : tables.Registered := by
  have hregister : TableRegistry.register [] table = .ok tables := by decide +kernel
  exact .register .empty (.withField (.ofDateColumn ..) ..) hregister

/-- The rows of two desks. -/
def request (first second : String) : RowsRequest :=
  ⟨"positions", ["desk"], [.oneOf "desk" [first, second]], none, false, 100, 0, none⟩

/-- The checked listing of these rows. -/
def plan (first second : String) : RowsPlan :=
  ⟨table, request first second, ["desk"], 100,
    [.membership "desk" false [⟨"p0_0", .string, first⟩, ⟨"p0_1", .string, second⟩]]⟩

theorem prepare_request (first second : String) :
    RowsPlan.prepare tables (request first second) = .ok (plan first second) := by
  have htable : tables.table "positions" = .ok table := rfl
  have hcolumns : ["desk"].forM table.require = .ok () := rfl
  have hkind : table.kindOf "desk" = .ok .text := rfl
  have hpredicate : Predicate.compile table [.oneOf "desk" [first, second]] =
      .ok (plan first second).predicate := by
    simp only [Predicate.compile, Predicate.compileFrom, Filter.oneOf, List.isEmpty_cons,
      Bool.false_eq_true, if_false, hkind]
    rfl
  simp only [RowsPlan.prepare, request, Checks.bind_eq_ok, Checks.pure_eq_ok]
  exact ⟨table, htable, (), hcolumns, (), rfl, 100, rfl, _, hpredicate, rfl⟩

/-- The statement for the rows of two desks. -/
def query (first second : String) : Query :=
  ((plan first second).select .epoch).query

theorem sent (first second : String) : Listing.Sent tables (query first second) :=
  .rows (prepare_request first second) .epoch

end DeskRows

theorem CacheKey.derived_tells_apart_deskRows :
    derived (DeskRows.query "EQ" "FX") ≠ derived (DeskRows.query "EQ" "IR") := by
  have hdigest : Digest.sha256 (material (DeskRows.query "EQ" "FX")) ≠
      Digest.sha256 (material (DeskRows.query "EQ" "IR")) := by
    decide +kernel
  obtain ⟨_, _, hlistings⟩ := derived_tells_apart (DeskRows.query "EQ" "FX")
    (DeskRows.query "EQ" "IR") fun h => absurd h hdigest
  intro h
  obtain ⟨_, _, hplain⟩ := hlistings _ _ DeskRows.tables_registered DeskRows.tables_registered
    (DeskRows.sent "EQ" "FX") (DeskRows.sent "EQ" "IR") h
  exact absurd (hplain (by decide +kernel)) (by decide +kernel)

/-- Two different statements of accepted listings that share a key. -/
theorem CacheKey.derived_collides :
    DeskRows.tables.Registered ∧
      Listing.Sent DeskRows.tables (DeskRows.query "x\x00p0_1\x00String\x00y" "z") ∧
      Listing.Sent DeskRows.tables (DeskRows.query "x" "y\x00p0_1\x00String\x00z") ∧
      derived (DeskRows.query "x\x00p0_1\x00String\x00y" "z") =
        derived (DeskRows.query "x" "y\x00p0_1\x00String\x00z") ∧
      DeskRows.query "x\x00p0_1\x00String\x00y" "z" ≠
        DeskRows.query "x" "y\x00p0_1\x00String\x00z" := by
  have hmaterial : material (DeskRows.query "x\x00p0_1\x00String\x00y" "z") =
      material (DeskRows.query "x" "y\x00p0_1\x00String\x00z") := by
    decide +kernel
  refine ⟨DeskRows.tables_registered, DeskRows.sent .., DeskRows.sent .., ?_, by decide +kernel⟩
  rw [derived, derived, hmaterial]

end SnapshotAnalytics

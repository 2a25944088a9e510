import SnapshotAnalytics.Proofs.Number.Digits
import SnapshotAnalytics.Proofs.Table.Schema
import SnapshotAnalytics.Proofs.Text.Tokens
import SnapshotAnalytics.Proofs.Text.Wording

/-!
# The vocabulary of statements

The fixed text of a statement is made of few words: keywords, functions, names given to columns,
numbers and signs, and the names of a table and of its fields. A phrase is a text all of whose tokens
are such words. Phrases are put together at signs and blanks, so that no two words run into one.
-/

namespace SnapshotAnalytics

open Text

/-! ## §1 Words -/

namespace Vocabulary

def keywords : List String :=
  ["SELECT", "DISTINCT", "AS", "FROM", "WHERE", "AND", "OR", "NOT", "IN", "ILIKE", "GROUP", "ORDER",
    "BY", "ASC", "DESC", "LIMIT", "OFFSET"]

def functions : List String :=
  ["sum", "avg", "min", "max", "count", "uniqExact", "ifNull", "nullIf", "toString",
    "toFloat64OrZero", "toStartOfMonth", "minOrNull", "maxOrNull"]

/-- The names given to selected columns; those of the figures of a stat card are numbered. -/
def labels : List String :=
  ["snapshot", "group_key", "month", "value", "result1", "result2", "result3"]

def signs : List Char :=
  " (),*=<>!/".toList

end Vocabulary

/-- The words of the statements over a table. -/
inductive Vocabulary (t : TableSchema) : List Char → Prop
  | keyword {word : String} (h : word ∈ Vocabulary.keywords) : Vocabulary t word.toList
  | function {word : String} (h : word ∈ Vocabulary.functions) : Vocabulary t word.toList
  | label {word : String} (h : word ∈ Vocabulary.labels) : Vocabulary t word.toList
  | figure (i : Nat) : Vocabulary t s!"value{i}".toList
  | number (n : Nat) : Vocabulary t (toString n).toList
  | sign {c : Char} (h : c ∈ Vocabulary.signs) : Vocabulary t [c]
  | table : Vocabulary t t.name.toList
  | field {name : String} {kind : FieldKind} (h : (name, kind) ∈ t.fields) :
      Vocabulary t name.toList

namespace Vocabulary

variable {t : TableSchema}

/-- The words that do not depend on a table. -/
def fixedWords : List (List Char) :=
  (keywords ++ functions ++ labels ++ ["0"]).map String.toList ++ signs.map ([·])

theorem of_fixedWords {word : List Char} (h : word ∈ fixedWords) : Vocabulary t word := by
  rcases List.mem_append.mp h with hword | hsign
  · obtain ⟨name, hname, rfl⟩ := List.mem_map.mp hword
    simp only [List.mem_append, List.mem_singleton] at hname
    obtain ((hkeyword | hfunction) | hlabel) | rfl := hname
    · exact .keyword hkeyword
    · exact .function hfunction
    · exact .label hlabel
    · exact .number 0
  · obtain ⟨c, hc, rfl⟩ := List.mem_map.mp hsign
    exact .sign hc

/-- The characters of words are letters, digits, underscores, points and signs. -/
theorem isWordingChar (ht : t.Checked) {word : List Char} (h : Vocabulary t word) :
    ∀ c ∈ word, isWordingChar c = true := by
  have hkeywords : ∀ word ∈ keywords, IsWording word := by decide +kernel
  have hfunctions : ∀ word ∈ functions, IsWording word := by decide +kernel
  have hlabels : ∀ word ∈ labels, IsWording word := by decide +kernel
  have hsigns : ∀ c ∈ signs, Text.isWordingChar c = true := List.all_eq_true.mp (by decide)
  cases h with
  | keyword hword => exact hkeywords _ hword
  | function hword => exact hfunctions _ hword
  | label hword => exact hlabels _ hword
  | figure i => exact IsWording.append (by decide) (.ofNat i)
  | number n => exact IsWording.ofNat n
  | sign hsign => exact List.forall_mem_singleton.mpr (hsigns _ hsign)
  | table => exact IsWording.of_isTableIdentifier ht.name
  | field hfield => exact IsWording.of_isIdentifier (ht.fields _ hfield)

end Vocabulary

/-! ## §2 Phrases -/

/-- A text whose tokens are words of the statements over a table. -/
def TableSchema.IsPhrase (t : TableSchema) (s : String) : Prop :=
  ∀ token ∈ tokens s.toList, Vocabulary t token

namespace Text

/-- A text of fixed words. -/
def isFixed (s : String) : Bool :=
  (tokens s.toList).all Vocabulary.fixedWords.contains

/-- A text of fixed words that ends apart from what follows. -/
def opens (s : String) : Bool :=
  isFixed s && decide (EndsApart s.toList)

/-- A text of fixed words that starts apart from what stands before it. -/
def closes (s : String) : Bool :=
  isFixed s && decide (StartsApart s.toList)

/-- A text of fixed words that keeps what stands around it apart. -/
def separates (s : String) : Bool :=
  opens s && closes s && !s.isEmpty

theorem opens_iff {s : String} : opens s = true ↔ isFixed s = true ∧ EndsApart s.toList := by
  rw [opens, Bool.and_eq_true, decide_eq_true_iff]

theorem closes_iff {s : String} : closes s = true ↔ isFixed s = true ∧ StartsApart s.toList := by
  rw [closes, Bool.and_eq_true, decide_eq_true_iff]

theorem separates_iff {s : String} :
    separates s = true ↔ opens s = true ∧ closes s = true ∧ s.toList ≠ [] := by
  simp [separates, and_assoc]

theorem endsApart_of_separates {s : String} (h : separates s = true) (before : List Char) :
    EndsApart (before ++ s.toList) := by
  obtain ⟨hopens, _, hnonempty⟩ := separates_iff.mp h
  exact (opens_iff.mp hopens).2.append hnonempty

theorem startsApart_of_separates {s : String} (h : separates s = true) (rest : List Char) :
    StartsApart (s.toList ++ rest) := by
  obtain ⟨_, hcloses, hnonempty⟩ := separates_iff.mp h
  exact (closes_iff.mp hcloses).2.append hnonempty

end Text

namespace TableSchema.IsPhrase

variable {t : TableSchema} {s s' fixed : String}

theorem of_isFixed (h : isFixed s = true) : t.IsPhrase s := by
  intro token htoken
  have hfixed := List.all_eq_true.mp h token htoken
  exact .of_fixedWords (by simpa using hfixed)

theorem append (h : EndsApart s.toList ∨ StartsApart s'.toList) (hs : t.IsPhrase s)
    (hs' : t.IsPhrase s') : t.IsPhrase (s ++ s') := by
  intro token htoken
  rw [String.toList_append, tokens_append h] at htoken
  rcases List.mem_append.mp htoken with htoken | htoken
  · exact hs token htoken
  · exact hs' token htoken

theorem opened (h : opens fixed = true) (hs : t.IsPhrase s) : t.IsPhrase (fixed ++ s) :=
  append (Or.inl (opens_iff.mp h).2) (of_isFixed (opens_iff.mp h).1) hs

theorem closed (hs : t.IsPhrase s) (h : closes fixed = true) : t.IsPhrase (s ++ fixed) :=
  append (Or.inr (closes_iff.mp h).2) hs (of_isFixed (closes_iff.mp h).1)

theorem separated (hs : t.IsPhrase s) (h : separates fixed = true) (hs' : t.IsPhrase s') :
    t.IsPhrase (s ++ fixed ++ s') := by
  refine append (Or.inl ?_) (hs.closed (separates_iff.mp h).2.1) hs'
  rw [String.toList_append]
  exact endsApart_of_separates h _

theorem intercalate (h : separates fixed = true) {texts : List String}
    (htexts : ∀ s ∈ texts, t.IsPhrase s) : t.IsPhrase (fixed.intercalate texts) := by
  induction texts with
  | nil => exact of_isFixed (by decide : isFixed "" = true)
  | cons s texts ih =>
    obtain ⟨hs, htexts⟩ := List.forall_mem_cons.mp htexts
    cases texts with
    | nil =>
      rw [String.intercalate_singleton]
      exact hs
    | cons next texts =>
      rw [String.intercalate_cons_cons]
      exact hs.separated h (ih htexts)

/-! Names and numbers are single words. -/

theorem of_word {word : String} (hword : Vocabulary t word.toList) (hne : word.toList ≠ [])
    (hchars : ∀ c ∈ word.toList, isIdentifierPart c = true ∨ c = '.') : t.IsPhrase word := by
  intro token htoken
  rw [tokens_word hne hchars, List.mem_singleton] at htoken
  exact htoken ▸ hword

theorem ofNat (n : Nat) : t.IsPhrase (toString n) := by
  refine of_word (.number n) ?_ fun c hc => Or.inl (isIdentifierPart_toString n c hc)
  rw [Nat.toString_eq_repr, Nat.toList_repr]
  exact Nat.toDigits_ne_nil

theorem figure (i : Nat) : t.IsPhrase s!"value{i}" := by
  have hpart : "value".toList.all isIdentifierPart = true := by decide
  have hchars : (s!"value{i}").toList = "value".toList ++ (toString i).toList :=
    String.toList_append
  refine of_word (.figure i) ?_ ?_
  · rw [hchars]
    exact List.append_ne_nil_of_left_ne_nil (by decide) _
  · intro c hc
    rw [hchars] at hc
    rcases List.mem_append.mp hc with hvalue | hdigit
    · exact Or.inl (List.all_eq_true.mp hpart c hvalue)
    · exact Or.inl (isIdentifierPart_toString i c hdigit)

theorem table (ht : t.Checked) : t.IsPhrase t.name := by
  refine of_word .table ?_ fun c hc => isIdentifierPart_of_isTableIdentifier ht.name hc
  intro hempty
  have hname := ht.name
  rw [isTableIdentifier, hempty] at hname
  exact absurd hname (by decide)

theorem field (ht : t.Checked) {name : String} {kind : FieldKind} (h : (name, kind) ∈ t.fields) :
    t.IsPhrase name := by
  have hidentifier : isIdentifier name = true := ht.fields _ h
  refine of_word (.field h) ?_ fun c hc => Or.inl (isIdentifierPart_of_isIdentifier hidentifier hc)
  intro hempty
  rw [isIdentifier, hempty] at hidentifier
  exact absurd hidentifier (by decide)

end TableSchema.IsPhrase

end SnapshotAnalytics

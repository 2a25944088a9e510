import SnapshotAnalytics.Proofs.Data.Readings
import SnapshotAnalytics.Proofs.Query.Bindings
import SnapshotAnalytics.Proofs.Query.Terms
import SnapshotAnalytics.Text.Casing

/-!
# Truth of conditions

A condition of SQL is judged by its terms, given which comparisons of fields with bound values are
true: what stands in parentheses is judged first, then comparisons and their negations, then `AND`,
then `OR`. Of conditions that are no comparisons it is taken as given whether they are true.
-/

namespace SnapshotAnalytics.Sql

/-! ## §1 Comparisons -/

/-- How a field is compared with a bound value. -/
inductive Relation where
  | equal
  | less
  | lessOrEqual
  | greater
  | greaterOrEqual
  | like
  deriving DecidableEq

/-- What is compared: the value of a column, or that value as text. -/
inductive Subject where
  | column (name : String)
  | asText (name : String)
  deriving DecidableEq

/-- The comparison of a field with a value that is bound as the given type. -/
structure Comparison where
  subject : Subject
  relation : Relation
  type : ParameterType
  value : String
  deriving DecidableEq

/-- The symbols of the comparisons, and whether they ask for the contrary. -/
def symbols : List (List Char × Relation × Bool) :=
  [("=".toList, .equal, false), ("!=".toList, .equal, true), ("<".toList, .less, false),
    ("<=".toList, .lessOrEqual, false), (">".toList, .greater, false),
    (">=".toList, .greaterOrEqual, false)]

/-! ## §2 Items -/

/-- A term of a condition: a lexeme, or a group together with its truth. -/
inductive Item where
  | token (lexeme : List Char)
  | group (inner : List Item) (truth : Option Bool)

def keywords : List (List Char) :=
  ["AND", "OR", "NOT", "IN", "ILIKE"].map String.toList

/-- An identifier that is no keyword in any case. -/
def isName (name : String) : Bool :=
  Text.isIdentifier name && !keywords.contains (Text.upper name.toList)

/-- A keyword in any case. -/
def Item.isKeyword (keyword : String) : Item → Bool
  | token s => Text.upper s == keyword.toList
  | group .. => false

def Item.isComma : Item → Bool
  | token s => s == [',']
  | group .. => false

/-- The keywords that connect conditions. -/
def Item.isConnective (i : Item) : Bool :=
  i.isKeyword "AND" || i.isKeyword "OR"

/-- What is judged of the items between those that separate them. -/
def listed? {α : Type} (separates : Item → Bool) (judge : List Item → Option α)
    (is : List Item) : Option (List α) :=
  (is.splitOnP separates).mapM judge

/-- The subject that items start with, and the items behind it. -/
def subject? : List Item → Option (Subject × List Item)
  -- a name with a single name in parentheses behind it is a call, and only one function is known
  | .token f :: .group [.token name] _ :: rest =>
    if f = "toString".toList && isName (String.ofList name) then
      some (.asText (String.ofList name), rest)
    else
      none
  | .token name :: rest =>
    if isName (String.ofList name) then some (.column (String.ofList name), rest) else none
  | _ => none

/-- What is known of a row: which comparisons are true, and which other conditions, by their items. -/
structure Facts where
  compares : Comparison → Bool
  other? : List Item → Option Bool

section
variable (o : Facts) (ps : List Parameter)

/-! ## §3 Judging -/

/-- The parameter that a single placeholder stands for. -/
def parameter? : List Item → Option Parameter
  | [.token s] => ps.find? (·.placeholder == s)
  | _ => none

/-- Whether a subject is in a relation with a bound value. -/
def holds (subject : Subject) (relation : Relation) (p : Parameter) : Bool :=
  o.compares ⟨subject, relation, p.type, p.value⟩

/-- Whether a subject equals one of several bound values. -/
def among? (subject : Subject) (is : List Item) : Option Bool :=
  (listed? Item.isComma (parameter? ps) is).map (·.any (holds o subject .equal))

/-- Comparison by `IN` or `ILIKE`, which can be negated by a word before it. -/
def worded? (subject : Subject) : List Item → Option Bool
  | [i, .group values _] =>
    if i.isKeyword "IN" then among? o ps subject values else none
  | [i, value] =>
    if i.isKeyword "ILIKE" then (parameter? ps [value]).map (holds o subject .like) else none
  | _ => none

/-- Comparison by a symbol. -/
def symbolic? (subject : Subject) : List Item → Option Bool
  | [.token s, value] => do
    let (relation, negated) ← symbols.lookup s
    let p ← parameter? ps [value]
    return xor negated (holds o subject relation p)
  | _ => none

/-- What is said of a subject. -/
def predicate? (subject : Subject) : List Item → Option Bool
  | [] => none
  | i :: is =>
    if i.isKeyword "NOT" then
      (worded? o ps subject is).map not
    else
      (worded? o ps subject (i :: is)).or (symbolic? o ps subject (i :: is))

/-- Comparison of a subject with bound values. -/
def comparison? (is : List Item) : Option Bool := do
  let (subject, rest) ← subject? is
  predicate? o ps subject rest

/-- A condition in parentheses, a comparison, or another condition that is known to be true or not. -/
def part? : List Item → Option Bool
  | [] => none
  | [.group _ truth] => truth
  -- what has connectives of its own is not a part, whatever is known of it
  | is => (comparison? o ps is).or (if is.any Item.isConnective then none else o.other? is)

/-- Parts connected by `AND`. -/
def conjunction? (is : List Item) : Option Bool :=
  (listed? (Item.isKeyword "AND") (part? o ps) is).map (·.all id)

/-- Conjunctions connected by `OR`. -/
def disjunction? (is : List Item) : Option Bool :=
  (listed? (Item.isKeyword "OR") (conjunction? o ps) is).map (·.any id)

mutual

/-- A term with the truth of the condition in its parentheses. -/
def item : Term → Item
  | .token s => .token s
  | .group terms => .group (items terms) (disjunction? o ps (items terms))

/-- The items of terms. -/
def items : List Term → List Item
  | [] => []
  | term :: terms => item term :: items terms

end

/-- What is judged of the items of a text. -/
def judge? {α : Type} (judge : List Item → Option α) (s : List Char) : Option α :=
  (terms? s).bind fun terms => judge (items o ps terms)

/-- **The truth of a condition**, given the comparisons that hold and the parameters bound in it. -/
def truth? (sql : String) : Option Bool :=
  judge? o ps (disjunction? o ps) sql.toList

/-- The truth of a condition that can be connected with others by `AND` as it is. -/
def conjunct? (sql : String) : Option Bool :=
  judge? o ps (conjunction? o ps) sql.toList

end

variable {o : Facts} {ps : List Parameter} {α : Type}

/-! ## §4 Items of texts put together -/

theorem items_append (terms others : List Term) :
    items o ps (terms ++ others) = items o ps terms ++ items o ps others := by
  induction terms with
  | nil => rfl
  | cons term terms ih => rw [List.cons_append, items, ih, items, List.cons_append]

theorem judge?_eq_some {judge : List Item → Option α} {s : List Char} {a : α} :
    judge? o ps judge s = some a ↔ ∃ terms, Shows s terms ∧ judge (items o ps terms) = some a := by
  rw [judge?, Option.bind_eq_some_iff]
  constructor
  · rintro ⟨terms, hterms, hjudge⟩
    exact ⟨terms, shows_of_terms? hterms, hjudge⟩
  · rintro ⟨terms, hshows, hjudge⟩
    exact ⟨terms, hshows.terms?_eq, hjudge⟩

theorem listed?_append {separates : Item → Bool} {judge : List Item → Option α}
    {is js : List Item} {i : Item} {as bs : List α} (hi : separates i = true)
    (has : listed? separates judge is = some as) (hbs : listed? separates judge js = some bs) :
    listed? separates judge (is ++ i :: js) = some (as ++ bs) := by
  unfold listed? at has hbs ⊢
  rw [List.splitOnP_append_cons _ _ hi, List.mapM_append, has, hbs]
  rfl

/-- Items none of which separates are judged as a whole. -/
theorem listed?_singleton {separates : Item → Bool} {judge : List Item → Option α}
    {is : List Item} {a : α} (his : ∀ i ∈ is, separates i = false) (ha : judge is = some a) :
    listed? separates judge is = some [a] := by
  rw [listed?, List.splitOnP_eq_singleton his, List.mapM_cons, ha]
  rfl

/-- Every item separates others or is in a piece between those that do. -/
theorem exists_mem_splitOnP (separates : Item → Bool) {is : List Item} {i : Item} (hi : i ∈ is) :
    separates i = true ∨ ∃ piece ∈ is.splitOnP separates, i ∈ piece := by
  induction is with
  | nil => cases hi
  | cons first is ih =>
    rw [List.splitOnP_cons_eq_if_modifyHead]
    split
    · rename_i hfirst
      rcases List.mem_cons.mp hi with rfl | hmem
      · exact Or.inl hfirst
      · exact (ih hmem).imp_right fun ⟨piece, hpiece, hi⟩ =>
          ⟨piece, List.mem_cons_of_mem _ hpiece, hi⟩
    · -- The first item belongs to the first piece.
      obtain ⟨piece, pieces, hsplit⟩ :=
        List.exists_cons_of_ne_nil (List.splitOnP_ne_nil separates is)
      rw [hsplit, List.exists_mem_cons_iff] at ih
      rw [hsplit, List.modifyHead_cons, List.exists_mem_cons_iff, List.mem_cons]
      rcases List.mem_cons.mp hi with rfl | hmem
      · exact Or.inr (Or.inl (Or.inl rfl))
      · exact (ih hmem).imp_right fun h => h.imp_left Or.inr

/-- All items are of a kind if those that separate are and so are those of pieces that are judged. -/
theorem forall_of_listed? {separates : Item → Bool} {judge : List Item → Option α}
    {P : Item → Prop} (hseparates : ∀ i, separates i = true → P i)
    (hjudge : ∀ {is a}, judge is = some a → ∀ i ∈ is, P i) {is : List Item} {as : List α}
    (h : listed? separates judge is = some as) : ∀ i ∈ is, P i := by
  intro i hi
  rcases exists_mem_splitOnP separates hi with hi | ⟨piece, hpiece, hi⟩
  · exact hseparates i hi
  · obtain ⟨a, ha⟩ := Readings.exists_result_of_mapM h hpiece
    exact hjudge ha i hi

/-- Two texts with a separating item between them, where lists of judgements are put together. -/
theorem judge?_listed_append {separates : Item → Bool} {judge : List Item → Option α}
    {f : List α → Bool} (combine : Bool → Bool → Bool)
    (hf : ∀ as bs, f (as ++ bs) = combine (f as) (f bs)) {between lexeme : List Char}
    (hlexeme : separates (.token lexeme) = true) (hbetween : Shows between [.token lexeme])
    (hapart : standsApart between = true) {s t : List Char} {a b : Bool}
    (ha : judge? o ps (fun is => (listed? separates judge is).map f) s = some a)
    (hb : judge? o ps (fun is => (listed? separates judge is).map f) t = some b) :
    judge? o ps (fun is => (listed? separates judge is).map f) (s ++ (between ++ t)) =
      some (combine a b) := by
  obtain ⟨terms, hs, ha⟩ := judge?_eq_some.mp ha
  obtain ⟨others, ht, hb⟩ := judge?_eq_some.mp hb
  obtain ⟨as, has, rfl⟩ := Option.map_eq_some_iff.mp ha
  obtain ⟨bs, hbs, rfl⟩ := Option.map_eq_some_iff.mp hb
  refine judge?_eq_some.mpr ⟨_, hs.between hbetween ht hapart, ?_⟩
  rw [items_append]
  exact Option.map_eq_some_iff.mpr ⟨_, listed?_append hlexeme has hbs, hf as bs⟩

/-- What is judged of two texts put together is judged of all that are joined. -/
theorem judge?_joined {judge : List Item → Option Bool} {between : String}
    (combine : Bool → Bool → Bool) (total : List Bool → Bool) (hone : ∀ b, total [b] = b)
    (hcons : ∀ b bs, total (b :: bs) = combine b (total bs))
    (hboth : ∀ {s t a b}, judge? o ps judge s = some a → judge? o ps judge t = some b →
      judge? o ps judge (s ++ (between.toList ++ t)) = some (combine a b))
    {fs : List Fragment} {bs : List Bool} (hne : fs ≠ [])
    (h : List.Forall₂ (fun f b => judge? o ps judge f.chars = some b) fs bs) :
    judge? o ps judge (Fragment.joined between fs).chars = some (total bs) := by
  induction h with
  | nil => exact absurd rfl hne
  | @cons f b fs bs hf hfs ih =>
    -- Behind the last fragment nothing is joined.
    cases hfs with
    | nil =>
      rw [hone]
      exact hf
    | cons hnext hfs =>
      rw [Fragment.joined_cons_cons, Fragment.chars_append, Fragment.chars_text, hcons]
      exact hboth hf (ih (List.cons_ne_nil _ _))

/-! ## §5 Connectives -/

theorem Item.isKeyword_eq_false {i : Item} {keyword other : String}
    (h : i.isKeyword keyword = true) (hne : keyword ≠ other) : i.isKeyword other = false := by
  cases i with
  | group inner truth => rfl
  | token s =>
    rw [isKeyword, beq_iff_eq] at h
    rw [isKeyword, h, beq_eq_false_iff_ne, ne_eq, String.toList_inj]
    exact hne

theorem Item.isConnective_eq_false {i : Item} {keyword : String} (h : i.isKeyword keyword = true)
    (hand : keyword ≠ "AND") (hor : keyword ≠ "OR") : i.isConnective = false := by
  rw [isConnective, isKeyword_eq_false h hand, isKeyword_eq_false h hor, Bool.or_false]

theorem isConnective_of_isName {s : List Char} (h : isName (String.ofList s) = true) :
    (Item.token s).isConnective = false := by
  rw [isName, String.toList_ofList, Bool.and_eq_true, Bool.not_eq_true', List.contains_eq_mem,
    decide_eq_false_iff_not] at h
  have hne {keyword : String} (hkeyword : keyword.toList ∈ keywords) :
      (Item.token s).isKeyword keyword = false := by
    rw [Item.isKeyword, beq_eq_false_iff_ne]
    intro hs
    exact h.2 (hs ▸ hkeyword)
  rw [Item.isConnective, hne (by decide), hne (by decide), Bool.or_false]

theorem isConnective_of_lookup {s : List Char} {a : Relation × Bool}
    (h : symbols.lookup s = some a) : (Item.token s).isConnective = false := by
  have hsymbols : ∀ entry ∈ symbols, (Item.token entry.1).isConnective = false := by decide
  obtain ⟨before, behind, hentries, _⟩ := List.lookup_eq_some_iff.mp h
  exact hsymbols (s, a) (hentries ▸ List.mem_append_right _ (List.mem_cons_self ..))

theorem isConnective_of_parameter? {is : List Item} {p : Parameter}
    (h : parameter? ps is = some p) : ∀ i ∈ is, i.isConnective = false := by
  unfold parameter? at h
  split at h
  · rename_i s
    have hs : p.placeholder = s := by simpa using List.find?_some h
    refine List.forall_mem_singleton.mpr ?_
    -- A placeholder starts with a brace, which has no other case.
    have hupper : Text.upper s = '\x7b' :: Text.upper (p.label ++ ['\x7d']) := by
      rw [← hs, Parameter.placeholder_eq]
      rfl
    simp [Item.isConnective, Item.isKeyword, hupper]
  · cases h

theorem isConnective_of_subject? {is rest : List Item} {subject : Subject}
    (h : subject? is = some (subject, rest)) :
    ∃ before, is = before ++ rest ∧ ∀ i ∈ before, i.isConnective = false := by
  unfold subject? at h
  -- The subject is a call of a function or a name.
  split at h
  · rename_i f name truth behind
    split at h
    · rename_i hcall
      cases h
      rw [Bool.and_eq_true, decide_eq_true_eq] at hcall
      refine ⟨[.token f, .group [.token name] truth], rfl, ?_⟩
      rw [hcall.1]
      exact List.forall_mem_cons.mpr ⟨by decide, List.forall_mem_singleton.mpr rfl⟩
    · cases h
  · rename_i name behind _
    split at h
    · rename_i hname
      cases h
      exact ⟨[.token name], rfl, List.forall_mem_singleton.mpr (isConnective_of_isName hname)⟩
    · cases h
  · cases h

theorem isConnective_of_worded? {subject : Subject} {is : List Item} {b : Bool}
    (h : worded? o ps subject is = some b) : ∀ i ∈ is, i.isConnective = false := by
  unfold worded? at h
  -- Behind the subject stands `IN` and a group, or `LIKE` or `ILIKE` and a parameter.
  split at h
  · rename_i i values truth
    split at h
    · rename_i hin
      exact List.forall_mem_cons.mpr ⟨Item.isConnective_eq_false hin (by decide) (by decide),
        List.forall_mem_singleton.mpr rfl⟩
    · cases h
  · rename_i i value _
    split at h
    · rename_i hlike
      obtain ⟨p, hp, _⟩ := Option.map_eq_some_iff.mp h
      exact List.forall_mem_cons.mpr ⟨Item.isConnective_eq_false hlike (by decide) (by decide),
        isConnective_of_parameter? hp⟩
    · cases h
  · cases h

theorem isConnective_of_symbolic? {subject : Subject} {is : List Item} {b : Bool}
    (h : symbolic? o ps subject is = some b) : ∀ i ∈ is, i.isConnective = false := by
  unfold symbolic? at h
  split at h
  · simp only [Option.bind_eq_bind, Option.bind_eq_some_iff] at h
    obtain ⟨relation, hrelation, p, hp, _⟩ := h
    exact List.forall_mem_cons.mpr
      ⟨isConnective_of_lookup hrelation, isConnective_of_parameter? hp⟩
  · cases h

/-- A comparison has no connective outside of parentheses. -/
theorem isConnective_of_comparison? {is : List Item} {b : Bool}
    (h : comparison? o ps is = some b) : ∀ i ∈ is, i.isConnective = false := by
  simp only [comparison?, Option.bind_eq_bind, Option.bind_eq_some_iff, Prod.exists] at h
  obtain ⟨subject, rest, hsubject, h⟩ := h
  obtain ⟨before, rfl, hbefore⟩ := isConnective_of_subject? hsubject
  refine List.forall_mem_append.mpr ⟨hbefore, ?_⟩
  unfold predicate? at h
  split at h
  · cases h
  · rename_i i is
    -- What follows the subject may be negated, be worded or start with a symbol.
    split at h
    · rename_i hnot
      obtain ⟨b, hb, _⟩ := Option.map_eq_some_iff.mp h
      exact List.forall_mem_cons.mpr
        ⟨Item.isConnective_eq_false hnot (by decide) (by decide), isConnective_of_worded? hb⟩
    · rcases Option.or_eq_some_iff.mp h with hb | ⟨_, hb⟩
      · exact isConnective_of_worded? hb
      · exact isConnective_of_symbolic? hb

theorem isConnective_of_part? {is : List Item} {b : Bool} (h : part? o ps is = some b) :
    ∀ i ∈ is, i.isConnective = false := by
  unfold part? at h
  split at h
  · cases h
  · exact List.forall_mem_singleton.mpr rfl
  · rcases Option.or_eq_some_iff.mp h with hb | ⟨_, hb⟩
    · exact isConnective_of_comparison? hb
    · split at hb
      · cases hb
      · rename_i hnone
        simpa using hnone

/-- A conjunction has no `OR` outside of parentheses. -/
theorem isKeyword_or_of_conjunction? {is : List Item} {b : Bool}
    (h : conjunction? o ps is = some b) : ∀ i ∈ is, i.isKeyword "OR" = false := by
  obtain ⟨bs, hbs, _⟩ := Option.map_eq_some_iff.mp h
  exact forall_of_listed? (fun i hi => Item.isKeyword_eq_false hi (by decide))
    (fun hb i hi => (Bool.or_eq_false_iff.mp (isConnective_of_part? hb i hi)).2) hbs

/-- A part is a conjunction. -/
theorem judge?_conjunction?_of_part? {s : List Char} {b : Bool}
    (h : judge? o ps (part? o ps) s = some b) : judge? o ps (conjunction? o ps) s = some b := by
  obtain ⟨terms, hshows, hb⟩ := judge?_eq_some.mp h
  have hand : ∀ i ∈ items o ps terms, i.isKeyword "AND" = false :=
    fun i hi => (Bool.or_eq_false_iff.mp (isConnective_of_part? hb i hi)).1
  have hlisted := listed?_singleton hand hb
  refine judge?_eq_some.mpr ⟨terms, hshows, ?_⟩
  rw [conjunction?, hlisted, Option.map_some, List.all_cons, List.all_nil, Bool.and_true, id]

/-- A conjunction is a condition. -/
theorem judge?_disjunction?_of_conjunction? {s : List Char} {b : Bool}
    (h : judge? o ps (conjunction? o ps) s = some b) :
    judge? o ps (disjunction? o ps) s = some b := by
  obtain ⟨terms, hshows, hb⟩ := judge?_eq_some.mp h
  have hlisted := listed?_singleton (isKeyword_or_of_conjunction? hb) hb
  refine judge?_eq_some.mpr ⟨terms, hshows, ?_⟩
  rw [disjunction?, hlisted, Option.map_some, List.any_cons, List.any_nil, Bool.or_false, id]

/-- A condition in parentheses is a part. -/
theorem judge?_part?_parenthesized {f : Fragment} {b : Bool}
    (h : judge? o ps (disjunction? o ps) f.chars = some b) :
    judge? o ps (part? o ps) (Fragment.parenthesized f).chars = some b := by
  obtain ⟨terms, hshows, hb⟩ := judge?_eq_some.mp h
  have hchars : (Fragment.parenthesized f).chars = '(' :: (f.chars ++ [')']) := by
    simp [Fragment.parenthesized, Fragment.chars_append]
  rw [hchars]
  exact judge?_eq_some.mpr ⟨_, hshows.parenthesized, hb⟩

/-- Conjunctions with `AND` between them. -/
theorem judge?_conjunction?_joined {fs : List Fragment} {bs : List Bool} (hne : fs ≠ [])
    (h : List.Forall₂ (fun f b => judge? o ps (conjunction? o ps) f.chars = some b) fs bs) :
    judge? o ps (conjunction? o ps) (Fragment.joined " AND " fs).chars = some (bs.all id) := by
  have hshows : Shows " AND ".toList (["AND".toList].map .token) :=
    .of_lexemes (by decide) (by decide)
  refine judge?_joined and (·.all id) Bool.and_true (fun _ _ => List.all_cons) ?_ hne h
  exact judge?_listed_append and (fun _ _ => List.all_append) (by decide) hshows (by decide)

/-- Conjunctions with `OR` between them. -/
theorem judge?_disjunction?_joined {fs : List Fragment} {bs : List Bool} (hne : fs ≠ [])
    (h : List.Forall₂ (fun f b => judge? o ps (conjunction? o ps) f.chars = some b) fs bs) :
    judge? o ps (disjunction? o ps) (Fragment.joined " OR " fs).chars = some (bs.any id) := by
  have hshows : Shows " OR ".toList (["OR".toList].map .token) :=
    .of_lexemes (by decide) (by decide)
  refine judge?_joined or (·.any id) Bool.or_false (fun _ _ => List.any_cons) ?_ hne
    (h.imp fun _ _ => judge?_disjunction?_of_conjunction?)
  exact judge?_listed_append or (fun _ _ => List.any_append) (by decide) hshows (by decide)

end SnapshotAnalytics.Sql

import SnapshotAnalytics.Proofs.Query.Placeholders
import SnapshotAnalytics.Proofs.Query.Vocabulary

/-!
# Selections in the words of a table

A fragment is written in the words of the statements over a table when its fixed text consists of
phrases, its parameters have names, and no two pieces run into one token. A selection whose parts are
written like this is so as a whole, and it is sound.
-/

namespace SnapshotAnalytics

open Text

variable {t : TableSchema}

/-! ## §1 Written fragments -/

/-- A phrase, or a parameter that has a name. -/
def Piece.IsWritten (t : TableSchema) : Piece → Prop
  | .text s => t.IsPhrase s
  | .parameter p => Parameter.isName p.name = true

namespace Fragment

/-- All pieces are written in the words of statements over a table, and none runs into the next. -/
structure IsWritten (t : TableSchema) (f : Fragment) : Prop where
  pieces : ∀ piece ∈ f, piece.IsWritten t
  apart : tokens f.chars = f.flatMap fun piece => tokens (pieceChars piece)

@[simp] theorem chars_nil : chars [] = [] :=
  rfl

@[simp] theorem chars_text (s : String) (f : Fragment) :
    chars (.text s :: f) = s.toList ++ chars f :=
  rfl

@[simp] theorem chars_parameter (p : Parameter) (f : Fragment) :
    chars (.parameter p :: f) = p.placeholder ++ chars f :=
  rfl

theorem chars_append (f g : Fragment) : chars (f ++ g) = chars f ++ chars g :=
  List.flatMap_append

/-- A placeholder is one token. -/
theorem tokens_placeholder {p : Parameter} (hp : Parameter.isName p.name = true) :
    tokens p.placeholder = [p.placeholder] := by
  have hinside {c : Char} (hc : c ∈ p.label) : startsToken c = false ∧ endsToken c = false := by
    obtain ⟨hopen, hclose⟩ := Parameter.brace_not_mem_label hp
    have hpart : isTokenPart c = true := by
      rcases Parameter.mem_label hp hc with hname | rfl
      · exact Bool.or_eq_true_iff.mpr (Or.inl hname)
      · decide
    simp [startsToken, endsToken, hpart, ne_of_mem_of_not_mem hc hopen,
      ne_of_mem_of_not_mem hc hclose]
  rw [Parameter.placeholder_eq]
  refine List.splitBy_of_isChain (List.cons_ne_nil _ _) (List.Pairwise.isChain ?_)
  have hglued {c d : Char} (hc : endsToken c = false) (hd : startsToken d = false) :
      isGlued c d = true := by
    rw [isGlued, hc, hd]
    rfl
  -- No token ends before the closing brace, and none starts behind the opening one.
  refine List.pairwise_cons.mpr ⟨?_, List.pairwise_append.mpr ⟨?_, List.pairwise_singleton .., ?_⟩⟩
  · intro d hd
    rcases List.mem_append.mp hd with hlabel | hbrace
    · exact hglued (by decide) (hinside hlabel).1
    · exact hglued (by decide) (List.mem_singleton.mp hbrace ▸ by decide)
  · exact List.pairwise_of_forall_mem_list fun c hc d hd => hglued (hinside hc).2 (hinside hd).1
  · intro c hc d hd
    exact hglued (hinside hc).2 (List.mem_singleton.mp hd ▸ by decide)

namespace IsWritten

variable {f g : Fragment} {s fixed : String} {p : Parameter}

theorem nil : IsWritten t [] :=
  ⟨List.forall_mem_nil _, rfl⟩

theorem text (hs : t.IsPhrase s) : IsWritten t [.text s] :=
  ⟨List.forall_mem_singleton.mpr hs, by simp [chars, pieceChars]⟩

theorem parameter (hp : Parameter.isName p.name = true) : IsWritten t [.parameter p] :=
  ⟨List.forall_mem_singleton.mpr hp, by simp [chars]⟩

theorem append (h : EndsApart f.chars ∨ StartsApart g.chars) (hf : f.IsWritten t)
    (hg : g.IsWritten t) : IsWritten t (f ++ g) := by
  constructor
  · intro piece hpiece
    rcases List.mem_append.mp hpiece with hpiece | hpiece
    · exact hf.pieces piece hpiece
    · exact hg.pieces piece hpiece
  · rw [chars_append, tokens_append h, hf.apart, hg.apart, List.flatMap_append]

/-- Fixed words before a fragment. -/
theorem opened (h : opens fixed = true) (hf : f.IsWritten t) : IsWritten t (.text fixed :: f) :=
  append (f := [.text fixed]) (Or.inl (by simpa using (opens_iff.mp h).2))
    (text (.of_isFixed (opens_iff.mp h).1)) hf

/-- A phrase and fixed words before a fragment. -/
theorem introduced (hs : t.IsPhrase s) (h : separates fixed = true) (hf : f.IsWritten t) :
    IsWritten t (.text (s ++ fixed) :: f) := by
  refine append (f := [.text (s ++ fixed)]) (Or.inl ?_)
    (text (hs.closed (separates_iff.mp h).2.1)) hf
  rw [chars_text, String.toList_append, chars_nil, List.append_nil]
  exact endsApart_of_separates h _

/-- Fixed words behind a fragment. -/
theorem closed (hf : f.IsWritten t) (h : closes fixed = true) : IsWritten t (f ++ [.text fixed]) :=
  append (Or.inr (by simpa using (closes_iff.mp h).2)) hf (text (.of_isFixed (closes_iff.mp h).1))

theorem joined (h : separates fixed = true) {fs : List Fragment} (hfs : ∀ f ∈ fs, f.IsWritten t) :
    IsWritten t (joined fixed fs) := by
  induction fs with
  | nil => exact nil
  | cons f fs ih =>
    obtain ⟨hf, hfs⟩ := List.forall_mem_cons.mp hfs
    cases fs with
    | nil => exact hf
    | cons next fs =>
      exact append (Or.inr (startsApart_of_separates h _)) hf
        ((ih hfs).opened (separates_iff.mp h).1)

theorem parenthesized (hf : f.IsWritten t) : IsWritten t (parenthesized f) :=
  (hf.opened (by decide)).closed (by decide)

theorem comparison {column symbol : String} (hcolumn : t.IsPhrase column)
    (hsymbol : t.IsPhrase symbol) (hp : Parameter.isName p.name = true) :
    IsWritten t (comparison column symbol p) := by
  have htext : t.IsPhrase s!"{column} {symbol} " :=
    (hcolumn.separated (by decide) hsymbol).closed (by decide)
  refine append (f := [_]) (Or.inr ?_) (text htext) (parameter hp)
  intro c hc
  rw [chars_parameter, Parameter.placeholder_eq] at hc
  cases hc
  decide

/-! Written fragments are sound, and their tokens are words and placeholders. -/

theorem isSound (ht : t.Checked) (hf : f.IsWritten t) : f.IsSound := by
  intro piece hpiece
  have hwritten := hf.pieces piece hpiece
  cases piece with
  | parameter p => exact hwritten
  | text s =>
    intro c hc
    rw [← flatten_tokens s.toList] at hc
    obtain ⟨token, htoken, hc⟩ := List.mem_flatten.mp hc
    exact (hwritten token htoken).isWordingChar ht c hc

theorem mem_tokens (hf : f.IsWritten t) {token : List Char} (h : token ∈ tokens f.chars) :
    Vocabulary t token ∨ ∃ p ∈ f.parameters, token = p.placeholder := by
  rw [hf.apart] at h
  obtain ⟨piece, hpiece, htoken⟩ := List.mem_flatMap.mp h
  have hwritten := hf.pieces piece hpiece
  cases piece with
  | text s => exact Or.inl (hwritten token htoken)
  | parameter p =>
    rw [pieceChars, tokens_placeholder hwritten, List.mem_singleton] at htoken
    exact Or.inr ⟨p, List.mem_filterMap.mpr ⟨_, hpiece, rfl⟩, htoken⟩

end IsWritten

end Fragment

/-! ## §2 Written selections -/

namespace Select

/-- All that a selection is put together from is written in the words of its table. -/
structure IsWritten (t : TableSchema) (s : Select) : Prop where
  table : s.table = t.name
  columns : ∀ column ∈ s.columns, t.IsPhrase column.text
  conditions : ∀ f ∈ s.conditions, f.IsWritten t
  groups : ∀ group ∈ s.groups, t.IsPhrase group
  order : ∀ o ∈ s.order, t.IsPhrase o.text

/-- Fixed words and a phrase, behind whatever stands before them. -/
theorem isWritten_appended (keyword : String) (h : separates keyword = true) {s : String}
    (hs : t.IsPhrase s) {f : Fragment} (hf : f.IsWritten t) :
    Fragment.IsWritten t (f ++ [.text (keyword ++ s)]) := by
  refine .append (Or.inr ?_) hf (.text (.opened (separates_iff.mp h).1 hs))
  rw [Fragment.chars_text, String.toList_append, List.append_assoc]
  exact startsApart_of_separates h _

theorem isWritten_clause (keyword : String) (h : separates keyword = true) {listed : List String}
    (hlisted : ∀ s ∈ listed, t.IsPhrase s) {f : Fragment} (hf : f.IsWritten t) :
    Fragment.IsWritten t (f ++ clause keyword listed) := by
  unfold clause
  split
  · rw [List.append_nil]
    exact hf
  · exact isWritten_appended keyword h (.intercalate (by decide) hlisted) hf

theorem isWritten_bounds (limit offset : Option Nat) {f : Fragment} (hf : f.IsWritten t) :
    Fragment.IsWritten t (f ++ bounds limit offset) := by
  cases limit with
  | none => exact (List.append_nil f).symm ▸ hf
  | some n =>
    have hlimit : Fragment.IsWritten t (f ++ [.text s!" LIMIT {n}"]) :=
      isWritten_appended " LIMIT " (by decide) (.ofNat n) hf
    -- A zero is no offset.
    match offset with
    | none | some 0 => exact hlimit
    | some (k + 1) =>
      have hoffset := isWritten_appended " OFFSET " (by decide) (.ofNat (k + 1)) hlimit
      rw [List.append_assoc] at hoffset
      exact hoffset

theorem isWritten_filtered {conditions : List Fragment} (h : ∀ c ∈ conditions, c.IsWritten t)
    {f : Fragment} (hf : f.IsWritten t) : Fragment.IsWritten t (f ++ filtered conditions) := by
  unfold filtered
  split
  · rw [List.append_nil]
    exact hf
  · exact .append (Or.inr (startsApart_of_separates (by decide) _)) hf
      (.opened (by decide) (.joined (by decide) h))

/-- **A selection is written** in the words of its table if its parts are. -/
theorem IsWritten.fragment {s : Select} (hs : s.IsWritten t) (ht : t.Checked) :
    s.fragment.IsWritten t := by
  have hcolumns : t.IsPhrase
      (if s.columns.isEmpty then "*" else ", ".intercalate (s.columns.map Selected.text)) := by
    split
    · exact .of_isFixed (by decide)
    · refine .intercalate (by decide) ?_
      intro text htext
      obtain ⟨column, hcolumn, rfl⟩ := List.mem_map.mp htext
      exact hs.columns column hcolumn
  have horder : ∀ text ∈ s.order.map Ordered.text, t.IsPhrase text := by
    intro text htext
    obtain ⟨o, ho, rfl⟩ := List.mem_map.mp htext
    exact hs.order o ho
  have hhead (columns : String) (h : t.IsPhrase columns) :
      Fragment.IsWritten t [.text s!"SELECT {columns} FROM {s.table}"] := by
    rw [hs.table]
    exact .text ((h.opened (by decide)).separated (by decide) (.table ht))
  -- The clauses follow in the order in which they are written.
  have hfiltered := isWritten_filtered hs.conditions (hhead _ hcolumns)
  have hgrouped := isWritten_clause " GROUP BY " (by decide) hs.groups hfiltered
  have hordered := isWritten_clause " ORDER BY " (by decide) horder hgrouped
  exact isWritten_bounds s.limit s.offset hordered

end Select

end SnapshotAnalytics

import SnapshotAnalytics.Proofs.Query.Conditions

/-!
# Truth of comparisons

A comparison of a field with a bound value is true when the field is in the relation that the symbol
stands for, or is not in it if the symbol asks for the contrary. What a placeholder stands for does
not depend on the other parameters of the statement, as long as these have different names.
-/

namespace SnapshotAnalytics.Sql

variable {o : Facts} {ps : List Parameter} {s t : List Char} {subject : Subject}
  {b : Bool} {p : Parameter}

/-! ## §1 Bound values -/

/-- A parameter that its placeholder stands for. -/
structure IsBound (ps : List Parameter) (p : Parameter) : Prop where
  name : Parameter.isName p.name = true
  found : ps.find? (·.placeholder == p.placeholder) = some p

/-- Parameters that pass their check are told apart by their placeholders. -/
theorem isBound_of_check (h : Parameter.check ps = .ok ()) (hp : p ∈ ps) : IsBound ps p := by
  obtain ⟨hnames, hnodup⟩ := Parameter.check_eq_ok.mp h
  refine ⟨hnames p hp, ?_⟩
  have hname {q : Parameter} (hq : q.placeholder = p.placeholder) : q.name = p.name :=
    congrArg Prod.fst (Parameter.header_eq_of_placeholder_eq (hnames p hp) hq)
  -- The check of the whole list is no use for its tail, so the induction is on names that differ.
  clear h
  induction ps with
  | nil => cases hp
  | cons q ps ih =>
    rw [List.map_cons, List.nodup_cons] at hnodup
    rcases List.mem_cons.mp hp with rfl | hp
    · exact List.find?_cons_of_pos (beq_self_eq_true _)
    · have hne : q.placeholder ≠ p.placeholder := fun hsame =>
        hnodup.1 (hname hsame ▸ List.mem_map_of_mem hp)
      rw [List.find?_cons_of_neg (by simpa using hne)]
      exact ih hp (List.forall_mem_cons.mp hnames).2 hnodup.2

/-! ## §2 Subjects -/

/-- A text that presents a subject, whatever word follows. -/
def Presents (o : Facts) (ps : List Parameter) (s : List Char) (subject : Subject) :
    Prop :=
  ∃ terms, Shows s terms ∧ ∀ lexeme rest,
    subject? (items o ps terms ++ .token lexeme :: rest) = some (subject, .token lexeme :: rest)

theorem presents_column {name : String} (h : isName name = true) :
    Presents o ps name.toList (.column name) := by
  refine ⟨_, Shows.identifier ((Bool.and_eq_true _ _).mp h).1, fun lexeme rest => ?_⟩
  simp [items, item, subject?, h]

theorem presents_asText {name : String} (h : isName name = true) :
    Presents o ps s!"toString({name})".toList (.asText name) := by
  have hname := Shows.identifier ((Bool.and_eq_true _ _).mp h).1
  have hfunction : Shows "toString".toList (["toString".toList].map .token) :=
    .of_lexemes (by decide) (by decide)
  have hchars : s!"toString({name})".toList =
      "toString".toList ++ '(' :: (name.toList ++ [')']) := by
    simp [toString]
  rw [hchars]
  refine ⟨_, hfunction.append hname.parenthesized (Or.inr rfl), fun lexeme rest => ?_⟩
  simp [items, item, subject?, h]

/-! ## §3 Comparisons -/

/-- A text that says of a subject what is true or not. -/
def Asserts (o : Facts) (ps : List Parameter) (s : List Char) (subject : Subject)
    (b : Bool) : Prop :=
  ∃ lexeme terms, Shows s (.token lexeme :: terms) ∧
    predicate? o ps subject (items o ps (.token lexeme :: terms)) = some b

theorem judge?_part?_of_presents (hs : Presents o ps s subject) (ht : Asserts o ps t subject b)
    (h : Apart s t) : judge? o ps (part? o ps) (s ++ t) = some b := by
  obtain ⟨terms, hterms, hsubject⟩ := hs
  obtain ⟨lexeme, others, hothers, hpredicate⟩ := ht
  refine judge?_eq_some.mpr ⟨_, hterms.append hothers h, ?_⟩
  rw [items, item] at hpredicate
  have hcomparison : comparison? o ps (items o ps terms ++ .token lexeme :: items o ps others) =
      some b := by
    rw [comparison?, hsubject]
    exact hpredicate
  rw [items_append, items, item]
  -- What reads a subject is neither empty nor a group, so it is judged as a comparison.
  unfold part?
  split
  · rename_i hnil
    simp at hnil
  · rename_i hgroup
    rw [hgroup] at hcomparison
    cases hcomparison
  · rw [hcomparison, Option.some_or]

/-- Words between blanks, and a placeholder. -/
theorem shows_words (words : List (List Char)) {fixed : List Char}
    (h : lexemes fixed = words ∧ (∀ l ∈ words, l ≠ ['('] ∧ l ≠ [')']) ∧ standsApart fixed = true)
    (hp : IsBound ps p) :
    Shows (fixed ++ p.placeholder) (words.map .token ++ [.token p.placeholder]) := by
  obtain ⟨hwords, hparens, hapart⟩ := h
  have hp := Shows.placeholder hp.name
  exact (Shows.of_lexemes hwords hparens).append hp (apart_of_standsApart hapart [] _).2

theorem parameter?_of_isBound (hp : IsBound ps p) :
    parameter? ps [.token p.placeholder] = some p :=
  hp.found

/-- Comparison by a symbol. -/
theorem asserts_symbol {symbol : List Char} {relation : Relation} {negated : Bool}
    (h : symbols.lookup symbol = some (relation, negated)) (hp : IsBound ps p) :
    Asserts o ps (' ' :: (symbol ++ [' ']) ++ p.placeholder) subject
      (xor negated (holds o subject relation p)) := by
  have hentries : ∀ entry ∈ symbols,
      (lexemes (' ' :: (entry.1 ++ [' '])) = [entry.1] ∧
        (∀ l ∈ [entry.1], l ≠ ['('] ∧ l ≠ [')']) ∧ standsApart (' ' :: (entry.1 ++ [' '])) = true) ∧
      (Item.token entry.1).isKeyword "NOT" = false ∧
      (Item.token entry.1).isKeyword "ILIKE" = false := by decide
  obtain ⟨before, behind, hsymbols, _⟩ := List.lookup_eq_some_iff.mp h
  obtain ⟨hwords, hnot, hlike⟩ := hentries (symbol, relation, negated)
    (hsymbols ▸ List.mem_append_right _ (List.mem_cons_self ..))
  refine ⟨symbol, _, shows_words [symbol] hwords hp, ?_⟩
  simp [items, item, predicate?, hnot, worded?, hlike, symbolic?, h, parameter?_of_isBound hp]

/-- Comparison by a word, which may have another one before it that negates it. -/
theorem asserts_worded (negated : Bool) (word : List Char) {fixed : List Char}
    (hfixed : lexemes fixed = (if negated then ["NOT".toList, word] else [word]) ∧
      standsApart fixed = true)
    (hword : word ≠ ['('] ∧ word ≠ [')'] ∧ (Item.token word).isKeyword "NOT" = false)
    {term : Term} (hs : Shows s [term])
    (hb : worded? o ps subject [.token word, item o ps term] = some b) :
    Asserts o ps (fixed ++ s) subject (xor negated b) := by
  obtain ⟨hwords, hapart⟩ := hfixed
  obtain ⟨hopen, hclose, hnot⟩ := hword
  have happend {words : List (List Char)} (hwords : lexemes fixed = words)
      (hparens : ∀ l ∈ words, l ≠ ['('] ∧ l ≠ [')']) :
      Shows (fixed ++ s) (words.map .token ++ [term]) :=
    (Shows.of_lexemes hwords hparens).append hs (apart_of_standsApart hapart [] s).2
  have hparens : ∀ l ∈ [word], l ≠ ['('] ∧ l ≠ [')'] :=
    List.forall_mem_singleton.mpr ⟨hopen, hclose⟩
  -- With `NOT` in front there is one word more, which is read before the comparison.
  cases negated with
  | false =>
    refine ⟨word, [term], happend hwords hparens, ?_⟩
    rw [items, items, items, item, predicate?, hnot, if_neg Bool.false_ne_true, hb, Option.some_or,
      Bool.false_xor]
  | true =>
    refine ⟨"NOT".toList, [.token word, term],
      happend hwords (List.forall_mem_cons.mpr ⟨by decide, hparens⟩), ?_⟩
    rw [items, items, items, items, item, item, predicate?, if_pos (by decide), hb, Option.map_some,
      Bool.true_xor]

/-- Comparison with a pattern. -/
theorem asserts_like (negated : Bool) (hp : IsBound ps p) :
    Asserts o ps (' ' :: ((if negated then "NOT ILIKE" else "ILIKE").toList ++ [' ']) ++ p.placeholder)
      subject (xor negated (holds o subject .like p)) := by
  have hlike : (Item.token "ILIKE".toList).isKeyword "ILIKE" = true := by decide
  refine asserts_worded negated "ILIKE".toList (by cases negated <;> decide) (by decide)
    (.placeholder hp.name) ?_
  rw [item, worded?, if_pos hlike, parameter?_of_isBound hp, Option.map_some]
  exact fun _ _ h => nomatch h

/-- A value among others that a subject may equal. -/
theorem judge?_among?_placeholder (subject : Subject) (hp : IsBound ps p) :
    judge? o ps (among? o ps subject) p.placeholder = some (holds o subject .equal p) := by
  have hcomma : ∀ i ∈ [Item.token p.placeholder], i.isComma = false := by
    rw [Parameter.placeholder_eq]
    exact List.forall_mem_singleton.mpr (by simp [Item.isComma])
  refine judge?_eq_some.mpr ⟨_, .placeholder hp.name, ?_⟩
  rw [among?, items, items, item, listed?_singleton hcomma (parameter?_of_isBound hp)]
  simp

/-- Values with commas between them. -/
theorem judge?_among?_joined (subject : Subject) {values : List Parameter} (hne : values ≠ [])
    (hvalues : ∀ p ∈ values, IsBound ps p) :
    judge? o ps (among? o ps subject)
        (Fragment.joined ", " (values.map fun value => [.parameter value])).chars =
      some (values.any (holds o subject .equal)) := by
  have hshows : Shows ", ".toList ([[',']].map .token) := .of_lexemes (by decide) (by decide)
  have hjudged : List.Forall₂
      (fun (f : Fragment) b => judge? o ps (among? o ps subject) f.chars = some b)
      (values.map fun value => [Piece.parameter value])
      (values.map (holds o subject .equal)) := by
    rw [List.forall₂_map_left_iff, List.forall₂_map_right_iff, List.forall₂_same]
    intro p hp
    rw [Fragment.chars_parameter, Fragment.chars_nil, List.append_nil]
    exact judge?_among?_placeholder subject (hvalues p hp)
  have hany : values.any (holds o subject .equal) =
      (values.map (holds o subject .equal)).any id := by
    rw [List.any_map, Function.id_comp]
  rw [hany]
  -- Each value is compared by itself, and one that is equal is enough.
  refine judge?_joined or (·.any id) Bool.or_false (fun _ _ => List.any_cons) ?_ (by simpa) hjudged
  exact judge?_listed_append or (fun _ _ => List.any_append) (by decide) hshows (by decide)

/-- Comparison with several values. -/
theorem asserts_among (negated : Bool) {values : List Parameter} (hne : values ≠ [])
    (hvalues : ∀ p ∈ values, IsBound ps p) :
    Asserts o ps ((if negated then " NOT IN " else " IN ").toList ++ '(' ::
        ((Fragment.joined ", " (values.map fun value => [.parameter value])).chars ++ [')']))
      subject (xor negated (values.any (holds o subject .equal))) := by
  have hin : (Item.token "IN".toList).isKeyword "IN" = true := by decide
  obtain ⟨terms, hshows, hb⟩ :=
    judge?_eq_some.mp (judge?_among?_joined (o := o) subject hne hvalues)
  refine asserts_worded negated "IN".toList (by cases negated <;> decide) (by decide)
    hshows.parenthesized ?_
  rw [item, worded?, if_pos hin, hb]

end SnapshotAnalytics.Sql

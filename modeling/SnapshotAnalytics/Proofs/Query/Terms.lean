import SnapshotAnalytics.Proofs.Query.Selections

/-!
# Terms of SQL

A text of SQL without quotes is cut into words, placeholders, symbols and punctuation, with blanks
between them passed over, and what stands in parentheses is put together to one term. The reader goes
from left to right with the parentheses that are still open; what it makes of a text it makes of it
inside any other text, as long as no two characters run into each other at the ends.
-/

namespace SnapshotAnalytics.Sql

/-! ## §1 Lexemes -/

/-- A character of a symbol such as `<=`. -/
def isSymbolPart (c : Char) : Bool :=
  "!<>=".toList.contains c

/-- Whether two neighbouring characters are in one lexeme. -/
def isGlued (c d : Char) : Bool :=
  Text.isGlued c d || (isSymbolPart c && isSymbolPart d)

/-- The lexemes of a text from left to right, without the blanks. -/
def lexemes (s : List Char) : List (List Char) :=
  (s.splitBy isGlued).filter fun lexeme => !lexeme.all Text.isBlank

/-- A character that is in no lexeme with others. -/
def separates (c : Char) : Bool :=
  Text.startsToken c && Text.endsToken c && !isSymbolPart c

/-- Two texts that do not run into each other: a separating character stands at one of the ends that
meet. -/
def Apart (s t : List Char) : Prop :=
  s.getLast?.all separates = true ∨ t.head?.all separates = true

/-- A text with separating characters at both ends. -/
def standsApart (s : List Char) : Bool :=
  s.head?.any separates && s.getLast?.any separates

theorem apart_of_standsApart {s : List Char} (h : standsApart s = true) (r t : List Char) :
    Apart r (s ++ t) ∧ Apart s t := by
  obtain ⟨⟨first, hhead, hfirst⟩, ⟨last, hlast, hsep⟩⟩ :
      (∃ c, s.head? = some c ∧ separates c = true) ∧
        ∃ c, s.getLast? = some c ∧ separates c = true := by
    simpa only [standsApart, Bool.and_eq_true, Option.any_eq_true] using h
  constructor
  · exact Or.inr (by rw [List.head?_append, hhead, Option.some_or, Option.all_some, hfirst])
  · exact Or.inl (by rw [hlast, Option.all_some, hsep])

theorem lexemes_append {s t : List Char} (h : Apart s t) :
    lexemes (s ++ t) = lexemes s ++ lexemes t := by
  have hsplit : (s ++ t).splitBy isGlued = s.splitBy isGlued ++ t.splitBy isGlued := by
    refine List.splitBy_append fun c hc d hd => ?_
    rcases h with hs | ht
    · have hsep := (Option.all_eq_true _ _).mp hs c hc
      simp only [separates, Bool.and_eq_true, Bool.not_eq_true'] at hsep
      simp [isGlued, Text.isGlued, hsep]
    · have hsep := (Option.all_eq_true _ _).mp ht d hd
      simp only [separates, Bool.and_eq_true, Bool.not_eq_true'] at hsep
      simp [isGlued, Text.isGlued, hsep]
  rw [lexemes, hsplit, List.filter_append, lexemes, lexemes]

/-- A single token with a character that is not blank is a single lexeme. -/
theorem lexemes_of_tokens {s : List Char} (h : Text.tokens s = [s])
    (hvisible : s.all Text.isBlank = false) : lexemes s = [s] := by
  have hne : s ≠ [] := by
    rintro rfl
    cases hvisible
  have hchain : s.IsChain fun c d => isGlued c d = true := by
    have hmem : s ∈ s.splitBy Text.isGlued := by
      rw [show s.splitBy Text.isGlued = [s] from h]
      exact List.mem_singleton.mpr rfl
    refine (List.isChain_of_mem_splitBy hmem).imp fun c d hglued => ?_
    rw [isGlued, hglued, Bool.true_or]
  rw [lexemes, List.splitBy_of_isChain hne hchain]
  exact List.filter_cons_of_pos (by rw [hvisible]; rfl)

/-! ## §2 Terms -/

/-- A lexeme, or what stands between two parentheses. -/
inductive Term where
  | token (lexeme : List Char)
  | group (terms : List Term)

/-- Read a lexeme. The terms of every open parenthesis are held latest first, those of the innermost
one in front. -/
def step (levels : List (List Term)) (lexeme : List Char) : Option (List (List Term)) :=
  if lexeme = ['('] then
    some ([] :: levels)
  else if lexeme = [')'] then
    match levels with
    | level :: outer :: levels => some ((.group level.reverse :: outer) :: levels)
    | _ => none
  else
    match levels with
    | level :: levels => some ((.token lexeme :: level) :: levels)
    | [] => none

theorem step_open (levels : List (List Term)) : step levels ['('] = some ([] :: levels) :=
  rfl

theorem step_close (level outer : List Term) (levels : List (List Term)) :
    step (level :: outer :: levels) [')'] = some ((.group level.reverse :: outer) :: levels) :=
  rfl

theorem step_token {lexeme : List Char} (hopen : lexeme ≠ ['(']) (hclose : lexeme ≠ [')'])
    (level : List Term) (levels : List (List Term)) :
    step (level :: levels) lexeme = some ((.token lexeme :: level) :: levels) := by
  unfold step
  rw [if_neg hopen, if_neg hclose]

/-- The terms of a text, if its parentheses match. -/
def terms? (s : List Char) : Option (List Term) :=
  match (lexemes s).foldlM step [[]] with
  | some [level] => some level.reverse
  | _ => none

/-! ## §3 Terms of texts put together -/

/-- A text is read as the given terms, behind whatever was read before it. -/
def Shows (s : List Char) (terms : List Term) : Prop :=
  ∀ level levels, (lexemes s).foldlM step (level :: levels) =
    some ((terms.reverse ++ level) :: levels)

namespace Shows

variable {s t : List Char} {terms others : List Term}

theorem terms?_eq (h : Shows s terms) : terms? s = some terms := by
  rw [terms?, h [] [], List.append_nil]
  simp

theorem append (hs : Shows s terms) (ht : Shows t others) (h : Apart s t) :
    Shows (s ++ t) (terms ++ others) := by
  intro level levels
  rw [lexemes_append h, List.foldlM_append, hs level levels]
  simp only [Option.bind_eq_bind, Option.bind_some, ht (terms.reverse ++ level) levels,
    List.reverse_append, List.append_assoc]

/-- Two texts with one between them that runs into neither. -/
theorem between {u : List Char} {inner : List Term} (hs : Shows s terms) (hu : Shows u inner)
    (ht : Shows t others) (h : standsApart u = true) :
    Shows (s ++ (u ++ t)) (terms ++ (inner ++ others)) :=
  hs.append (hu.append ht (apart_of_standsApart h [] t).2) (apart_of_standsApart h s t).1

/-- Lexemes other than parentheses are the terms of a text. -/
theorem of_lexemes {ls : List (List Char)} (hs : lexemes s = ls)
    (h : ∀ l ∈ ls, l ≠ ['('] ∧ l ≠ [')']) : Shows s (ls.map .token) := by
  unfold Shows
  rw [hs]
  clear hs
  induction ls with
  | nil => exact fun _ _ => rfl
  | cons l ls ih =>
    intro level levels
    obtain ⟨⟨hopen, hclose⟩, hls⟩ := List.forall_mem_cons.mp h
    rw [List.foldlM_cons, step_token hopen hclose, Option.bind_eq_bind, Option.bind_some, ih hls]
    simp

theorem parenthesized (h : Shows s terms) : Shows ('(' :: (s ++ [')'])) [.group terms] := by
  intro level levels
  have hlexemes : lexemes ('(' :: (s ++ [')'])) = ['('] :: (lexemes s ++ [[')']]) := by
    have hopen : Apart ['('] (s ++ [')']) := Or.inl rfl
    have hclose : Apart s [')'] := Or.inr rfl
    rw [← List.singleton_append, lexemes_append hopen, lexemes_append hclose]
    rfl
  rw [hlexemes, List.foldlM_cons, step_open, Option.bind_eq_bind, Option.bind_some,
    List.foldlM_append, h [] (level :: levels), Option.bind_eq_bind, Option.bind_some,
    List.foldlM_cons, step_close]
  simp

/-- A single token other than a parenthesis is a term. -/
theorem token {c : Char} (h : Text.tokens (c :: s) = [c :: s])
    (hc : c ≠ '(' ∧ c ≠ ')' ∧ Text.isBlank c = false) : Shows (c :: s) [.token (c :: s)] := by
  obtain ⟨hopen, hclose, hvisible⟩ := hc
  have hlexemes : lexemes (c :: s) = [c :: s] :=
    lexemes_of_tokens h (by rw [List.all_cons, hvisible, Bool.false_and])
  refine of_lexemes hlexemes (List.forall_mem_singleton.mpr ⟨?_, ?_⟩)
  · exact fun hs => hopen (List.cons.inj hs).1
  · exact fun hs => hclose (List.cons.inj hs).1

/-- An identifier is a term. -/
theorem identifier {name : String} (h : Text.isIdentifier name = true) :
    Shows name.toList [.token name.toList] := by
  -- Identifiers are ASCII, so the characters that they may have can be gone through.
  have hascii : ∀ n < 128, Text.isIdentifierPart (Char.ofNat n) = true →
      Char.ofNat n ≠ '(' ∧ Char.ofNat n ≠ ')' ∧ Text.isBlank (Char.ofNat n) = false := by decide
  have hpart {c : Char} (hc : c ∈ name.toList) : Text.isIdentifierPart c = true :=
    Text.isIdentifierPart_of_isIdentifier h hc
  cases hname : name.toList with
  | nil =>
    rw [Text.isIdentifier, hname] at h
    cases h
  | cons c s =>
    rw [hname] at hpart
    have hc : Text.isIdentifierPart c = true := hpart (List.mem_cons_self ..)
    have hlt : c.toNat < 128 :=
      Text.toNat_lt_of_isWordingChar (Text.isWordingChar_of_isIdentifierPart hc)
    refine token (Text.tokens_word (List.cons_ne_nil c s) fun _ hd => Or.inl (hpart hd)) ?_
    rw [← Char.ofNat_toNat c] at hc ⊢
    exact hascii c.toNat hlt hc

/-- A placeholder is a term. -/
theorem placeholder {p : Parameter} (hp : Parameter.isName p.name = true) :
    Shows p.placeholder [.token p.placeholder] := by
  have htokens := Fragment.tokens_placeholder hp
  rw [Parameter.placeholder_eq] at htokens ⊢
  exact token htokens (by decide)

end Shows

/-! ## §4 Matching parentheses

A text that can be read by itself can be read inside any other: what is read at the end of its
innermost open parentheses does not depend on what stands around them.
-/

/-- What was read of a text, with `level` read before it and `levels` still open around it. -/
def within (level : List Term) (levels : List (List Term)) : List (List Term) → List (List Term)
  | [] => level :: levels
  | [outermost] => (outermost ++ level) :: levels
  | innermost :: outer => innermost :: within level levels outer

theorem within_cons_cons (level : List Term) (levels : List (List Term)) (inner outer : List Term)
    (read : List (List Term)) :
    within level levels (inner :: outer :: read) = inner :: within level levels (outer :: read) :=
  rfl

/-- A term is added to what was read of the innermost open parenthesis. -/
theorem within_added (level : List Term) (levels : List (List Term)) (term : Term)
    (inner : List Term) (read : List (List Term)) :
    ∃ first rest, within level levels (inner :: read) = first :: rest ∧
      within level levels ((term :: inner) :: read) = (term :: first) :: rest := by
  -- Only at the outermost level there is something that was read before.
  cases read with
  | nil => exact ⟨inner ++ level, levels, rfl, rfl⟩
  | cons outer read => exact ⟨inner, within level levels (outer :: read), rfl, rfl⟩

theorem step_within (level : List Term) (levels : List (List Term)) {read next : List (List Term)}
    {lexeme : List Char} (hread : read ≠ []) (h : step read lexeme = some next) :
    next ≠ [] ∧ step (within level levels read) lexeme = some (within level levels next) := by
  obtain ⟨inner, read, rfl⟩ := List.exists_cons_of_ne_nil hread
  by_cases hopen : lexeme = ['(']
  · subst hopen
    cases h
    exact ⟨List.cons_ne_nil _ _, rfl⟩
  by_cases hclose : lexeme = [')']
  · subst hclose
    cases read with
    -- There is no open parenthesis, so by itself the text is not read any further.
    | nil => cases h
    | cons outer read =>
      cases h
      obtain ⟨first, rest, hbefore, hbehind⟩ :=
        within_added level levels (.group inner.reverse) outer read
      exact ⟨List.cons_ne_nil _ _, by rw [within_cons_cons, hbefore, hbehind, step_close]⟩
  · rw [step_token hopen hclose] at h
    cases h
    obtain ⟨first, rest, hbefore, hbehind⟩ := within_added level levels (.token lexeme) inner read
    exact ⟨List.cons_ne_nil _ _, by rw [hbefore, hbehind, step_token hopen hclose]⟩

theorem foldlM_within (level : List Term) (levels : List (List Term)) {ls : List (List Char)}
    {read last : List (List Term)} (hread : read ≠ []) (h : ls.foldlM step read = some last) :
    ls.foldlM step (within level levels read) = some (within level levels last) := by
  induction ls generalizing read with
  | nil =>
    cases h
    rfl
  | cons l ls ih =>
    rw [List.foldlM_cons, Option.bind_eq_bind, Option.bind_eq_some_iff] at h
    obtain ⟨next, hnext, h⟩ := h
    obtain ⟨hne, hstep⟩ := step_within level levels hread hnext
    rw [List.foldlM_cons, hstep, Option.bind_eq_bind, Option.bind_some, ih hne h]

/-- **What a text is read as** by itself, it is read as behind and inside whatever there is. -/
theorem shows_of_terms? {s : List Char} {terms : List Term} (h : terms? s = some terms) :
    Shows s terms := by
  unfold terms? at h
  split at h
  · rename_i last hlast
    cases h
    intro level levels
    have hwithin := foldlM_within level levels (List.cons_ne_nil [] []) hlast
    rw [List.reverse_reverse]
    exact hwithin
  · cases h

end SnapshotAnalytics.Sql

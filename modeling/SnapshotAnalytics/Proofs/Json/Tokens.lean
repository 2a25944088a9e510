import SnapshotAnalytics.Proofs.Json.Numeral
import SnapshotAnalytics.Proofs.Json.Quoted

/-!
# Tokens of a value

Compact text is cut into exactly the tokens of the value it was made from. A quoted text and a
container end with their last character; a word or a numeral ends only with what comes behind it, so
the statement asks that a value is followed by the end of the text or by a mark of the container
around it. White space behind a value makes no difference to its tokens.
-/

namespace SnapshotAnalytics.Json

/-! ## §1 Tokens and numbers of a value -/

mutual

/-- The tokens of a value. -/
def tokens : Json → List Token
  | null => [.null]
  | bool b => [.bool b]
  | number n => [.number (some n)]
  | text s => [.text (some s)]
  | array [] => [.openArray, .closeArray]
  | array (item :: items) => .openArray :: tokens item ++ tokensOfItems items ++ [.closeArray]
  | object [] => [.openObject, .closeObject]
  | object ((key, value) :: members) =>
    .openObject :: .text (some key) :: .colon :: tokens value ++ tokensOfMembers members
      ++ [.closeObject]

/-- The tokens of the items behind the first one. -/
def tokensOfItems : List Json → List Token
  | [] => []
  | item :: items => .comma :: tokens item ++ tokensOfItems items

/-- The tokens of the members behind the first one. -/
def tokensOfMembers : List (String × Json) → List Token
  | [] => []
  | (key, value) :: members =>
    .comma :: .text (some key) :: .colon :: tokens value ++ tokensOfMembers members

end

mutual

/-- Every number in a value has a property. -/
def EveryNumber (P : Number → Prop) : Json → Prop
  | number n => P n
  | array items => EveryNumberOfItems P items
  | object members => EveryNumberOfMembers P members
  | _ => True

/-- Every number in some items has a property. -/
def EveryNumberOfItems (P : Number → Prop) : List Json → Prop
  | [] => True
  | item :: items => EveryNumber P item ∧ EveryNumberOfItems P items

/-- Every number in some members has a property. -/
def EveryNumberOfMembers (P : Number → Prop) : List (String × Json) → Prop
  | [] => True
  | (_, value) :: members => EveryNumber P value ∧ EveryNumberOfMembers P members

end

/-! ## §2 Ends of words and numerals -/

/-- What may stand behind a value: nothing, or a mark of the container around it. -/
def Delimited (rest : List Char) : Prop :=
  rest = [] ∨ ∃ c s, rest = c :: s ∧ (c = ',' ∨ c = ']' ∨ c = '\x7d')

theorem delimited_cons {c : Char} {s : List Char} (h : c = ',' ∨ c = ']' ∨ c = '\x7d') :
    Delimited (c :: s) :=
  Or.inr ⟨c, s, rfl, h⟩

theorem delimited_items (items : List Json) (rest : List Char) :
    Delimited (charsOfItems items ++ ']' :: rest) := by
  cases items with
  | nil => exact delimited_cons (by decide)
  | cons item items => exact delimited_cons (by decide)

theorem delimited_members (members : List (String × Json)) (rest : List Char) :
    Delimited (charsOfMembers members ++ '\x7d' :: rest) := by
  cases members with
  | nil => exact delimited_cons (by decide)
  | cons member members => exact delimited_cons (by decide)

/-- A token that ends with what comes behind it: the machine goes on as if it stood between tokens. -/
theorem run_of_finish {scan : Scan} {token : Token} {done : List Token} {rest : List Char}
    (hfinish : scan.finish = some [token])
    (hstep : ∀ c, c = ',' ∨ c = ']' ∨ c = '\x7d' → scan.step c = scan.finishBefore c)
    (hrest : Delimited rest) : scan.run done rest = Scan.between.run (token :: done) rest := by
  rcases hrest with rfl | ⟨c, s, rfl, hc⟩
  · simp only [Scan.run, hfinish]
    rfl
  · rw [Scan.run, hstep c hc, Scan.finishBefore, hfinish, Scan.run]
    rcases hc with rfl | rfl | rfl <;> rfl

theorem run_word {seen : List Char} {token : Token} {done : List Token} {rest : List Char}
    (hword : Token.ofWord? seen.reverse = some token) (hrest : Delimited rest) :
    (Scan.word seen).run done rest = Scan.between.run (token :: done) rest := by
  apply run_of_finish _ _ hrest
  · rw [Scan.finish, hword]
    rfl
  · rintro c (rfl | rfl | rfl) <;> rfl

theorem run_numeral {seen : List Char} {token : Token} {done : List Token} {rest : List Char}
    (hnumeral : Token.ofNumeral? seen.reverse = some token) (hrest : Delimited rest) :
    (Scan.numeral seen).run done rest = Scan.between.run (token :: done) rest := by
  apply run_of_finish _ _ hrest
  · rw [Scan.finish, hnumeral]
    rfl
  · rintro c (rfl | rfl | rfl) <;> rfl

/-- The machine passes over the characters of a numeral. -/
theorem run_numeral_append {s : List Char} (hs : ∀ c ∈ s, Scan.isNumeralChar c = true)
    (seen : List Char) (done : List Token) (rest : List Char) :
    (Scan.numeral seen).run done (s ++ rest) = (Scan.numeral (s.reverse ++ seen)).run done rest := by
  induction s generalizing seen with
  | nil => rfl
  | cons c s ih =>
    have hc : Scan.isNumeralChar c = true := hs c (List.mem_cons_self ..)
    have hrest := ih (fun d hd => hs d (List.mem_cons_of_mem _ hd)) (c :: seen)
    rw [List.cons_append, Scan.run, Scan.step, if_pos hc, List.reverse_cons, List.append_assoc]
    exact hrest

/-- The machine reads the text of a number as its token. -/
theorem run_number {n : Number} (hn : n.ReadsBack) {done : List Token} {rest : List Char}
    (hrest : Delimited rest) :
    Scan.between.run done (n.text ++ rest) = Scan.between.run (.number (some n) :: done) rest := by
  -- A numeral starts with a minus sign or with a digit, and both make the machine read a numeral.
  obtain ⟨c, s, hs, hc⟩ := hn.start
  have hchars := hn.chars
  have hvalue := hn.value
  rw [hs] at hchars hvalue ⊢
  have hstart : Scan.start c = some ([], .numeral [c]) := by
    rcases hc with rfl | hdigit
    · rfl
    · have hne (d : Char) (hd : d.isDigit = false) : c ≠ d := by
        rintro rfl
        rw [hd] at hdigit
        cases hdigit
      simp [Scan.start, hdigit, hne ' ' rfl, hne '\t' rfl, hne '\n' rfl, hne '\r' rfl, hne '"' rfl]
  rw [List.cons_append, Scan.run, Scan.step, hstart]
  show (Scan.numeral [c]).run done (s ++ rest) = _
  rw [run_numeral_append fun d hd => hchars d (List.mem_cons_of_mem _ hd)]
  refine run_numeral ?_ hrest
  rwa [List.reverse_append, List.reverse_reverse, List.reverse_singleton]

/-! ## §3 Whole values -/

/-- The machine reads a mark between two tokens. -/
theorem run_punctuation {c : Char} {token : Token} (h : Scan.start c = some ([token], .between))
    (done : List Token) (rest : List Char) :
    Scan.between.run done (c :: rest) = Scan.between.run (token :: done) rest := by
  rw [Scan.run, Scan.step, h]
  rfl

mutual

/-- The machine reads the text of a value as the tokens of the value. -/
theorem run_chars (j : Json) (hj : EveryNumber Number.ReadsBack j) (done : List Token)
    (rest : List Char) (hrest : Delimited rest) :
    Scan.between.run done (j.chars ++ rest) = Scan.between.run (j.tokens.reverse ++ done) rest := by
  -- The three statements recurse as the three functions that write a value do.
  match j, hj with
  | null, _ =>
    exact run_word rfl hrest
  | bool true, _ =>
    exact run_word rfl hrest
  | bool false, _ =>
    exact run_word rfl hrest
  | number n, hn =>
    exact run_number hn hrest
  | text s, _ =>
    exact run_quote s done rest
  | array [], _ =>
    rfl
  | array (item :: items), hitems =>
    obtain ⟨hitem, hitems⟩ := hitems
    have hbehind := delimited_items items rest
    simp only [chars, tokens, List.cons_append, List.append_assoc, List.nil_append,
      List.reverse_cons, List.reverse_append, List.reverse_nil]
    rw [run_punctuation rfl, run_chars item hitem _ _ hbehind, run_charsOfItems items hitems,
      run_punctuation rfl]
  | object [], _ =>
    rfl
  | object ((key, value) :: members), hmembers =>
    obtain ⟨hvalue, hmembers⟩ := hmembers
    have hbehind := delimited_members members rest
    simp only [chars, tokens, List.cons_append, List.append_assoc, List.nil_append,
      List.reverse_cons, List.reverse_append, List.reverse_nil]
    rw [run_punctuation rfl, run_quote, run_punctuation rfl, run_chars value hvalue _ _ hbehind,
      run_charsOfMembers members hmembers, run_punctuation rfl]

/-- The machine reads the items behind the first one, up to the end of the array. -/
theorem run_charsOfItems (items : List Json) (hitems : EveryNumberOfItems Number.ReadsBack items)
    (done : List Token) (rest : List Char) :
    Scan.between.run done (charsOfItems items ++ ']' :: rest) =
      Scan.between.run ((tokensOfItems items).reverse ++ done) (']' :: rest) := by
  match items, hitems with
  | [], _ =>
    rfl
  | item :: items, hitems =>
    obtain ⟨hitem, hitems⟩ := hitems
    have hbehind := delimited_items items rest
    simp only [charsOfItems, tokensOfItems, List.cons_append, List.append_assoc, List.nil_append,
      List.reverse_cons, List.reverse_append]
    rw [run_punctuation rfl, run_chars item hitem _ _ hbehind, run_charsOfItems items hitems]

/-- The machine reads the members behind the first one, up to the end of the object. -/
theorem run_charsOfMembers (members : List (String × Json))
    (hmembers : EveryNumberOfMembers Number.ReadsBack members) (done : List Token)
    (rest : List Char) :
    Scan.between.run done (charsOfMembers members ++ '\x7d' :: rest) =
      Scan.between.run ((tokensOfMembers members).reverse ++ done) ('\x7d' :: rest) := by
  match members, hmembers with
  | [], _ =>
    rfl
  | (key, value) :: members, hmembers =>
    obtain ⟨hvalue, hmembers⟩ := hmembers
    have hbehind := delimited_members members rest
    simp only [charsOfMembers, tokensOfMembers, List.cons_append, List.append_assoc,
      List.nil_append, List.reverse_cons, List.reverse_append]
    rw [run_punctuation rfl, run_quote, run_punctuation rfl, run_chars value hvalue _ _ hbehind,
      run_charsOfMembers members hmembers]

end

/-- **Tokens read back**: the text of a value whose numbers read back is cut into its tokens. -/
theorem tokens?_chars {j : Json} (hj : EveryNumber Number.ReadsBack j) :
    tokens? j.chars = some j.tokens := by
  have hrun := run_chars j hj [] [] (Or.inl rfl)
  rw [List.append_nil, List.append_nil] at hrun
  rw [tokens?, hrun]
  simp [Scan.run, Scan.finish]

/-! ## §4 White space behind a value -/

/-- White space between two tokens. -/
def IsSpace (c : Char) : Prop :=
  c = ' ' ∨ c = '\t' ∨ c = '\n' ∨ c = '\r'

instance (c : Char) : Decidable (IsSpace c) :=
  inferInstanceAs (Decidable (_ ∨ _))

namespace Scan

variable {c : Char} {scan : Scan}

theorem finishBefore_space (hc : IsSpace c) :
    scan.finishBefore c = scan.finish.map fun ended => (ended, between) := by
  rw [finishBefore]
  cases scan.finish with
  | none => rfl
  | some ended => rcases hc with rfl | rfl | rfl | rfl <;> rfl

theorem run_space_of_step (hc : IsSpace c) (hstep : scan.step c = scan.finishBefore c)
    (done : List Token) : scan.run done [c] = scan.run done [] := by
  simp only [run, hstep, finishBefore_space hc]
  cases scan.finish <;> rfl

/-- Wherever the machine stands, a space at the end of the text completes the token at hand as the end
of the text does. Inside quotes the text ends too early, with the space or without it. -/
theorem run_concat_space (hc : IsSpace c) (scan : Scan) (done : List Token) (s : List Char) :
    scan.run done (s ++ [c]) = scan.run done s := by
  induction s generalizing scan done with
  | nil =>
    rw [List.nil_append]
    -- At the end of the text, a word or a numeral is completed by the space.
    cases scan with
    | between => rcases hc with rfl | rfl | rfl | rfl <;> rfl
    | word seen => exact run_space_of_step hc (by rcases hc with rfl | rfl | rfl | rfl <;> rfl) done
    | numeral seen =>
      exact run_space_of_step hc (by rcases hc with rfl | rfl | rfl | rfl <;> rfl) done
    | quoted seen => rcases hc with rfl | rfl | rfl | rfl <;> rfl
    | escaped seen => rfl
  | cons d s ih =>
    rw [List.cons_append, run, run]
    cases scan.step d with
    | none => rfl
    | some result => exact ih result.2 (result.1 ++ done)

end Scan

/-- White space behind a text does not count. -/
theorem tokens?_concat_space {c : Char} (hc : IsSpace c) (s : List Char) :
    tokens? (s ++ [c]) = tokens? s :=
  Scan.run_concat_space hc .between [] s

end SnapshotAnalytics.Json

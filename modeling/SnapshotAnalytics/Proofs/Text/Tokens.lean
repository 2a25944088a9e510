import Mathlib.Data.List.SplitBy
import SnapshotAnalytics.Text.Identifier

/-!
# Tokens

A text is cut into tokens: words, which are as long as possible, placeholders in braces, and all other
characters by themselves. Where two texts do not touch with parts of one token, the tokens of both
together are those of the one and then those of the other.
-/

namespace SnapshotAnalytics.Text

/-- A character that may have others beside it in a token: one of a word or of a placeholder. -/
def isTokenPart (c : Char) : Bool :=
  isIdentifierPart c || ".\x7b:\x7d".toList.contains c

/-- A character that starts a token, whatever stands before it. -/
def startsToken (c : Char) : Bool :=
  !isTokenPart c || c == '\x7b'

/-- A character that ends a token, whatever stands behind it. -/
def endsToken (c : Char) : Bool :=
  !isTokenPart c || c == '\x7d'

/-- Whether two neighbouring characters are in one token. -/
def isGlued (c d : Char) : Bool :=
  !endsToken c && !startsToken d

/-- The tokens of a text, from left to right. -/
def tokens (s : List Char) : List (List Char) :=
  s.splitBy isGlued

/-- Nothing is lost: the tokens of a text, put together, are the text. -/
theorem flatten_tokens (s : List Char) : (tokens s).flatten = s :=
  List.flatten_splitBy isGlued s

/-! ## §1 Tokens of texts put together -/

/-- A text at whose beginning a token starts, whatever stands before it. -/
def StartsApart (s : List Char) : Prop :=
  ∀ c ∈ s.head?, startsToken c = true

/-- A text at whose end a token ends, whatever stands behind it. -/
def EndsApart (s : List Char) : Prop :=
  ∀ c ∈ s.getLast?, endsToken c = true

-- Characters are finitely many, but only the one there has to be tried.
instance (s : List Char) : Decidable (StartsApart s) :=
  decidable_of_iff (s.head?.all startsToken = true) (Option.all_eq_true startsToken s.head?)

instance (s : List Char) : Decidable (EndsApart s) :=
  decidable_of_iff (s.getLast?.all endsToken = true) (Option.all_eq_true endsToken s.getLast?)

theorem tokens_append {s t : List Char} (h : EndsApart s ∨ StartsApart t) :
    tokens (s ++ t) = tokens s ++ tokens t := by
  apply List.splitBy_append
  intro c hc d hd
  rcases h with hs | ht
  · rw [isGlued, hs c hc, Bool.not_true, Bool.false_and]
  · rw [isGlued, ht d hd, Bool.not_true, Bool.and_false]

theorem EndsApart.append {s t : List Char} (ht : t ≠ []) (h : EndsApart t) : EndsApart (s ++ t) := by
  rw [EndsApart, List.getLast?_append_of_ne_nil _ ht]
  exact h

theorem StartsApart.append {s t : List Char} (hs : s ≠ []) (h : StartsApart s) :
    StartsApart (s ++ t) := by
  rw [StartsApart, List.head?_append_of_ne_nil _ hs]
  exact h

/-! ## §2 Single tokens -/

/-- A word is one token. Points may stand in it. -/
theorem tokens_word {s : List Char} (hs : s ≠ [])
    (h : ∀ c ∈ s, isIdentifierPart c = true ∨ c = '.') : tokens s = [s] := by
  have hinside {c : Char} (hc : c ∈ s) : startsToken c = false ∧ endsToken c = false := by
    rcases h c hc with hword | rfl
    · have hopen : c ≠ '\x7b' := fun hc => absurd (hc ▸ hword) (by decide)
      have hclose : c ≠ '\x7d' := fun hc => absurd (hc ▸ hword) (by decide)
      simp [startsToken, endsToken, isTokenPart, hword, hopen, hclose]
    · decide
  refine List.splitBy_of_isChain hs (List.Pairwise.isChain ?_)
  apply List.pairwise_of_forall_mem_list
  intro c hc d hd
  rw [isGlued, (hinside hc).2, (hinside hd).1, Bool.not_false, Bool.true_and]

end SnapshotAnalytics.Text

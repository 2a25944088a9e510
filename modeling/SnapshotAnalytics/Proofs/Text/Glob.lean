import SnapshotAnalytics.Text.Glob

/-!
# Patterns that start with plain characters

Characters without a meaning in patterns stand for themselves, whatever follows them in a pattern. So
a pattern that starts with a plain text matches only texts that start with it, and with one star behind
it the pattern matches all of those.
-/

namespace SnapshotAnalytics.Text.Glob

/-- Whether a pattern matches a text; one that is malformed matches none. -/
def covers (pattern s : String) : Bool :=
  match read pattern with
  | .ok tokens => standFor tokens s.toList
  | .error _ => false

/-- A character that stands for itself outside of sets. -/
def isPlain (c : Char) : Bool :=
  c != '?' && c != '*' && c != '['

/-! ## §1 Reading -/

theorem readToken_plain (position : Nat) (before : Option Char) {c : Char} (hc : isPlain c = true)
    (s : List Char) : readToken position before (c :: s) = .ok (.char c, 1) := by
  unfold readToken
  split <;> simp_all [isPlain]

/-- What was read before stays at the front of what is read in the end. -/
theorem prefix_of_readFrom {position passing : Nat} {before : Option Char}
    {done tokens : List GlobToken} {s : List Char}
    (h : readFrom position before done passing s = .ok tokens) : done.reverse <+: tokens := by
  have hpush (done : List GlobToken) (token : GlobToken) :
      done.reverse <+: (push done token).reverse := by
    unfold push
    split
    · exact List.prefix_rfl
    · rw [List.reverse_cons]
      exact List.prefix_append ..
  induction s generalizing position before done passing with
  | nil =>
    cases passing <;> cases h <;> exact List.prefix_rfl
  | cons c s ih =>
    -- A character that is passed over adds nothing; any other adds a token or is refused.
    cases passing with
    | succ passing => exact ih h
    | zero =>
      rw [readFrom] at h
      split at h
      · cases h
      · exact (hpush done _).trans (ih h)

/-- Plain characters are read as themselves. -/
theorem exists_readFrom_plain {literal : List Char} (hliteral : ∀ c ∈ literal, isPlain c = true)
    (position : Nat) (before : Option Char) (done : List GlobToken) (s : List Char) :
    ∃ position' before', readFrom position before done 0 (literal ++ s) =
      readFrom position' before' ((literal.map GlobToken.char).reverse ++ done) 0 s := by
  induction literal generalizing position before done with
  | nil => exact ⟨position, before, rfl⟩
  | cons c literal ih =>
    obtain ⟨hc, hliteral⟩ := List.forall_mem_cons.mp hliteral
    obtain ⟨position', before', hread⟩ := ih hliteral (position + 1) (some c) (.char c :: done)
    refine ⟨position', before', ?_⟩
    rw [List.cons_append, readFrom, readToken_plain position before hc]
    simpa [push] using hread

/-! ## §2 Matching -/

theorem standFor_plain {literal : List Char} {tokens : List GlobToken} {s : List Char} :
    standFor (literal.map GlobToken.char ++ tokens) s = true ↔
      ∃ rest, s = literal ++ rest ∧ standFor tokens rest = true := by
  induction literal generalizing s with
  | nil => simp
  | cons c literal ih =>
    cases s with
    | nil => simp [standFor]
    | cons d s =>
      simp only [List.map_cons, List.cons_append, standFor, matchesChar, Bool.and_eq_true,
        beq_iff_eq, ih, List.cons.injEq]
      constructor
      · rintro ⟨rfl, rest, rfl, hrest⟩
        exact ⟨rest, ⟨rfl, rfl⟩, hrest⟩
      · rintro ⟨rest, ⟨rfl, rfl⟩, hrest⟩
        exact ⟨rfl, rest, rfl, hrest⟩

variable {literal pattern s : String}

/-- A pattern that starts with plain characters matches only texts that start with them. -/
theorem prefix_of_covers (hliteral : ∀ c ∈ literal.toList, isPlain c = true)
    (h : covers (literal ++ pattern) s = true) : literal.toList <+: s.toList := by
  unfold covers read at h
  obtain ⟨position, before, hread⟩ := exists_readFrom_plain hliteral 0 none [] pattern.toList
  rw [String.toList_append, hread] at h
  split at h
  · rename_i tokens htokens
    obtain ⟨rest, rfl⟩ := prefix_of_readFrom htokens
    rw [List.append_nil, List.reverse_reverse] at h
    obtain ⟨rest, hs, _⟩ := standFor_plain.mp h
    exact ⟨rest, hs.symm⟩
  · cases h

theorem read_star (hliteral : ∀ c ∈ literal.toList, isPlain c = true) :
    read (literal ++ "*") = .ok (literal.toList.map GlobToken.char ++ [.anyRun]) := by
  obtain ⟨position, before, hread⟩ := exists_readFrom_plain hliteral 0 none [] ['*']
  rw [read, String.toList_append]
  refine hread.trans ?_
  simp [readFrom, readToken, push]

/-- With a star behind them the pattern matches all texts that start with them. -/
theorem covers_star (hliteral : ∀ c ∈ literal.toList, isPlain c = true) :
    covers (literal ++ "*") s = literal.toList.isPrefixOf s.toList := by
  have hrun (s : List Char) : standFor [.anyRun] s = true := by
    rw [standFor]
    induction s with
    | nil => rfl
    | cons c s ih => rw [afterAnyRun, ih, Bool.or_true]
  rw [covers, read_star hliteral, Bool.eq_iff_iff, standFor_plain, List.isPrefixOf_iff_prefix]
  constructor
  · rintro ⟨rest, hs, _⟩
    exact ⟨rest, hs.symm⟩
  · rintro ⟨rest, hs⟩
    exact ⟨rest, hs.symm, hrun rest⟩

end SnapshotAnalytics.Text.Glob

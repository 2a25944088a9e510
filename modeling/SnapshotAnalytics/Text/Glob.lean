/-!
# Glob patterns

In a pattern `?` stands for one character, `*` for any run of characters, and a set in brackets for
one of the characters it lists; two stars make a path component of their own that stands for any
number of components. All other characters stand for themselves. A pattern can be malformed; the
position of the mistake counts characters from zero.
-/

namespace SnapshotAnalytics.Text

/-- A piece of a set: a single character, or all characters from one to another. -/
inductive GlobItem where
  | single (c : Char)
  | range (first last : Char)
  deriving DecidableEq

/-- A piece of a pattern. -/
inductive GlobToken where
  | char (c : Char)
  | anyChar
  | anyRun
  | anyComponents
  | oneOf (items : List GlobItem)
  | noneOf (items : List GlobItem)
  deriving DecidableEq

/-- What is wrong with a pattern. -/
inductive GlobFault where
  | tooManyStars
  | partialComponent
  | invalidRange
  deriving DecidableEq

/-- A mistake in a pattern and where it is. -/
structure GlobError where
  position : Nat
  fault : GlobFault
  deriving DecidableEq

namespace GlobError

def message (e : GlobError) : String :=
  let fault := match e.fault with
    | .tooManyStars => "wildcards are either regular `*` or recursive `**`"
    | .partialComponent => "recursive wildcards must form a single path component"
    | .invalidRange => "invalid range pattern"
  "Pattern syntax error near position " ++ toString e.position ++ ": " ++ fault

end GlobError

namespace Glob

/-! ## §1 Reading patterns -/

/-- The items of a set, given the characters between the brackets. A dash between two characters
makes a range of them. -/
def items : List Char → List GlobItem
  | first :: '-' :: last :: s => .range first last :: items s
  | c :: s => .single c :: items s
  | [] => []

/-- The characters up to the next closing bracket, which may not be the first of them; nothing when
there is no such bracket. -/
def untilBracket? : List Char → Option (List Char)
  | [] => none
  | c :: s => if s.contains ']' then some (c :: s.takeWhile (· ≠ ']')) else none

/-- Read a set behind its opening bracket: the set and the number of characters read. -/
def readSet? : List Char → Option (GlobToken × Nat)
  | '!' :: s => (untilBracket? s).map fun body => (.noneOf (items body), body.length + 2)
  | s => (untilBracket? s).map fun body => (.oneOf (items body), body.length + 1)

/-- Read one piece at `position`, given the character before it; gives back the piece and the number
of characters read, at least one. -/
def readToken (position : Nat) (before : Option Char) :
    List Char → Except GlobError (GlobToken × Nat)
  | '?' :: _ => .ok (.anyChar, 1)
  | '*' :: s =>
    match (s.takeWhile (· = '*')).length, s.dropWhile (· = '*') with
    | 0, _ => .ok (.anyRun, 1)
    -- two stars stand for whole components, so a separator or an end is needed on either side
    | 1, rest =>
      if before.all (· = '/') then
        match rest with
        | [] => .ok (.anyComponents, 2)
        | '/' :: _ => .ok (.anyComponents, 3)
        | _ => .error ⟨position + 2, .partialComponent⟩
      else
        .error ⟨position - 1, .partialComponent⟩
    | _, _ => .error ⟨position + 2, .tooManyStars⟩
  | '[' :: s =>
    match readSet? s with
    | some (set, n) => .ok (set, n + 1)
    | none => .error ⟨position, .invalidRange⟩
  | c :: _ => .ok (.char c, 1)
  | [] => .ok (.anyRun, 1)

/-- Append a piece to the pieces before it, latest first; components that follow components, except
at the very start, are the same components. -/
def push (done : List GlobToken) (token : GlobToken) : List GlobToken :=
  match token, done with
  | .anyComponents, .anyComponents :: _ :: _ => done
  | _, _ => token :: done

/-- Read the pieces from `position` on. The first number counts the characters of the piece read last
that are still to be passed over. -/
def readFrom (position : Nat) (before : Option Char) (done : List GlobToken) :
    Nat → List Char → Except GlobError (List GlobToken)
  | _, [] => .ok done.reverse
  | passing + 1, c :: s => readFrom (position + 1) (some c) done passing s
  | 0, c :: s =>
    match readToken position before (c :: s) with
    | .error e => .error e
    | .ok (token, n) => readFrom (position + 1) (some c) (push done token) (n - 1) s

/-- Read a pattern. -/
def read (pattern : String) : Except GlobError (List GlobToken) :=
  readFrom 0 none [] 0 pattern.toList

/-! ## §2 Matching -/

def inSet (set : List GlobItem) (c : Char) : Bool :=
  set.any fun
    | .single d => c == d
    | .range first last => first ≤ c && c ≤ last

/-- Whether a piece that stands for one character stands for this one. -/
def matchesChar : GlobToken → Char → Bool
  | .char d, c => c == d
  | .anyChar, _ => true
  | .oneOf set, c => inSet set c
  | .noneOf set, c => !inSet set c
  | .anyRun, _ => false
  | .anyComponents, _ => false

/-- Whether `rest` accepts some end of a text. -/
def afterAnyRun (rest : List Char → Bool) : List Char → Bool
  | [] => rest []
  | c :: s => rest (c :: s) || afterAnyRun rest s

/-- Whether `rest` accepts some end of a text that follows a separator, or its very end. -/
def afterSeparators (rest : List Char → Bool) : List Char → Bool
  | [] => rest []
  | c :: s => (c == '/' && rest s) || afterSeparators rest s

/-- Whether the pieces stand for the text. -/
def standFor : List GlobToken → List Char → Bool
  | [], s => s.isEmpty
  | .anyRun :: tokens, s => afterAnyRun (standFor tokens) s
  -- no component at all, or as many as there are up to some separator
  | .anyComponents :: tokens, s => standFor tokens s || afterSeparators (standFor tokens) s
  | _ :: _, [] => false
  | token :: tokens, c :: s => matchesChar token c && standFor tokens s

/-! ## §3 Deciding a match

To follow every way in which runs can be divided takes time exponential in their number. Instead the
pieces are taken from the last to the first, and for each of them it is noted which ends of the text
it and the pieces behind it stand for.
-/

/-- The ends of a text, longest first. -/
def ends : List Char → List (List Char)
  | [] => [[]]
  | c :: s => (c :: s) :: ends s

/-- The first of the notes on the ends of a text. -/
def first (notes : List Bool) : Bool :=
  notes.headD false

/-- Notes for any run, given those on what follows it. -/
def notesAnyRun : List Bool → List Bool
  | [] => []
  -- the note of an end is the disjunction of all notes from it on
  | note :: notes =>
    match notesAnyRun notes with
    | [] => [note]
    | later :: more => (note || later) :: later :: more

/-- Notes on the ends behind a separator and on the very end, given those on what follows. -/
def notesSeparators : List Char → List Bool → List Bool
  | c :: s, _ :: notes =>
    let later := notesSeparators s notes
    ((c == '/' && first notes) || first later) :: later
  | _, notes => notes

/-- Notes for a piece that stands for one character, given those on what follows it. -/
def notesChar (token : GlobToken) : List Char → List Bool → List Bool
  | c :: s, _ :: notes => (matchesChar token c && first notes) :: notesChar token s notes
  | _, _ => [false]

/-- Which ends of a text the pieces stand for. -/
def notes (s : List Char) : List GlobToken → List Bool
  | [] => (ends s).map List.isEmpty
  | .anyRun :: tokens => notesAnyRun (notes s tokens)
  | .anyComponents :: tokens =>
    let later := notes s tokens
    List.zipWith (· || ·) later (notesSeparators s later)
  | token :: tokens => notesChar token s (notes s tokens)

/-- Whether the pieces stand for the text. -/
def accepts (tokens : List GlobToken) (s : List Char) : Bool :=
  first (notes s tokens)

theorem first_ends (f : List Char → Bool) (s : List Char) : first ((ends s).map f) = f s := by
  cases s <;> rfl

theorem notesAnyRun_ends (f : List Char → Bool) (s : List Char) :
    notesAnyRun ((ends s).map f) = (ends s).map (afterAnyRun f) := by
  induction s with
  | nil => rfl
  | cons c s ih =>
    cases s with
    | nil => rfl
    | cons d s =>
      simp only [ends, List.map_cons, notesAnyRun] at ih ⊢
      rw [ih]
      rfl

theorem notesSeparators_ends (f : List Char → Bool) (s : List Char) :
    notesSeparators s ((ends s).map f) = (ends s).map (afterSeparators f) := by
  induction s with
  | nil => rfl
  | cons c s ih =>
    simp only [ends, List.map_cons, notesSeparators, ih, first_ends, afterSeparators]

theorem notesChar_ends (token : GlobToken) (f : List Char → Bool) (s : List Char) :
    notesChar token s ((ends s).map f) =
      (ends s).map fun
        | [] => false
        | c :: r => matchesChar token c && f r := by
  induction s with
  | nil => rfl
  | cons c s ih => simp only [ends, List.map_cons, notesChar, ih, first_ends]

/-- The notes say which ends the pieces stand for. -/
theorem notes_eq (s : List Char) (tokens : List GlobToken) :
    notes s tokens = (ends s).map (standFor tokens) := by
  induction tokens with
  | nil => exact List.map_congr_left fun r _ => (standFor.eq_1 r).symm
  | cons token tokens ih =>
    cases token with
    | anyRun =>
      simp only [notes, ih, notesAnyRun_ends]
      exact List.map_congr_left fun r _ => by simp only [standFor]
    | anyComponents =>
      simp only [notes, ih, notesSeparators_ends, List.zipWith_map, List.zipWith_self]
      exact List.map_congr_left fun r _ => by simp only [standFor]
    | char | anyChar | oneOf | noneOf =>
      simp only [notes, ih, notesChar_ends]
      exact List.map_congr_left fun r _ => by cases r <;> simp only [standFor]

/-- A match is decided rightly. -/
theorem accepts_eq_standFor (tokens : List GlobToken) (s : List Char) :
    accepts tokens s = standFor tokens s := by
  simp only [accepts, notes_eq, first_ends]

end Glob

end SnapshotAnalytics.Text

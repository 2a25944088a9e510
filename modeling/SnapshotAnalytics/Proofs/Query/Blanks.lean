import SnapshotAnalytics.Proofs.Query.Bindings
import SnapshotAnalytics.Proofs.Query.Placeholders

/-!
# Statements without their values

A parameter stands in the text of a statement as its placeholder, which shows its name and its type
and not its value. So the values of a statement can be blanked out without a change to its text, and
statements that are the same once their values are blanked out have the same text and bind the same
names and types.
-/

namespace SnapshotAnalytics

/-! ## §1 Forms of queries -/

/-- What is left of a query without its values: its text, and the names and types it binds. -/
structure QueryForm where
  sql : String
  headers : List (String × ParameterType)
  deriving DecidableEq

/-- The form of a query. -/
def Query.form (q : Query) : QueryForm :=
  ⟨q.sql, q.parameters.map Parameter.header⟩

/-! ## §2 Blanked fragments -/

/-- A parameter with an empty value. -/
def Parameter.blank (p : Parameter) : Parameter :=
  { p with value := "" }

/-- A piece with an empty value, if it has one. -/
def Piece.blank : Piece → Piece
  | .text s => .text s
  | .parameter p => .parameter p.blank

@[simp] theorem Parameter.header_blank (p : Parameter) : p.blank.header = p.header :=
  rfl

@[simp] theorem Fragment.pieceChars_blank (piece : Piece) :
    pieceChars piece.blank = pieceChars piece := by
  cases piece <;> rfl

namespace Fragment

/-- A fragment with empty values. -/
def blank (f : Fragment) : Fragment :=
  f.map Piece.blank

@[simp] theorem blank_nil : blank [] = [] :=
  rfl

@[simp] theorem blank_text (s : String) (f : Fragment) :
    blank (.text s :: f) = .text s :: blank f :=
  rfl

@[simp] theorem blank_parameter (p : Parameter) (f : Fragment) :
    blank (.parameter p :: f) = .parameter p.blank :: blank f :=
  rfl

@[simp] theorem blank_append (f g : Fragment) : blank (f ++ g) = blank f ++ blank g :=
  List.map_append

@[simp] theorem blank_joined (between : String) (fs : List Fragment) :
    blank (joined between fs) = joined between (fs.map blank) := by
  induction fs with
  | nil => rfl
  | cons f fs ih =>
    cases fs with
    | nil => rfl
    | cons next fs =>
      rw [joined_cons_cons, blank_append, blank_text, ih]
      rfl

@[simp] theorem blank_parenthesized (f : Fragment) :
    blank (parenthesized f) = parenthesized (blank f) := by
  simp [parenthesized]

@[simp] theorem blank_comparison (column symbol : String) (p : Parameter) :
    blank (comparison column symbol p) = comparison column symbol p.blank :=
  rfl

theorem chars_blank (f : Fragment) : f.blank.chars = f.chars := by
  simp [chars, blank, List.flatMap_map]

theorem headers_blank (f : Fragment) :
    f.blank.parameters.map Parameter.header = f.parameters.map Parameter.header := by
  induction f with
  | nil => rfl
  | cons piece f ih =>
    cases piece with
    | text s => exact ih
    | parameter p => exact congrArg (p.header :: ·) ih

/-- **A form does not depend on values**: fragments that are the same once their values are blanked
out have the same form. -/
theorem form_eq_of_blank_eq {f g : Fragment} (h : f.blank = g.blank) :
    f.query.form = g.query.form := by
  have hsql : f.sql = g.sql := by
    rw [sql, sql, ← chars_blank f, h, chars_blank]
  have hheaders : f.parameters.map Parameter.header = g.parameters.map Parameter.header := by
    rw [← headers_blank f, h, headers_blank]
  simp only [query, Query.form, hsql, hheaders]

end Fragment

/-! ## §3 Blanked selections -/

namespace Select

/-- A selection with empty values; all else stays. -/
def blank (s : Select) : Select :=
  { s with conditions := s.conditions.map Fragment.blank }

theorem blank_clause (keyword : String) (listed : List String) :
    (clause keyword listed).blank = clause keyword listed := by
  unfold clause
  split <;> rfl

theorem blank_bounds (limit offset : Option Nat) :
    (bounds limit offset).blank = bounds limit offset := by
  unfold bounds
  split
  · rfl
  · split <;> rfl

theorem blank_filtered (conditions : List Fragment) :
    (filtered conditions).blank = filtered (conditions.map Fragment.blank) := by
  unfold filtered
  rw [List.isEmpty_map]
  split
  · rfl
  · simp

theorem blank_fragment (s : Select) : s.fragment.blank = s.blank.fragment := by
  simp only [fragment, Fragment.blank_append, Fragment.blank_text, blank_clause, blank_bounds,
    blank_filtered]
  rfl

/-- Selections that are the same once their values are blanked out have the same form. -/
theorem form_eq_of_blank_eq {s s' : Select} (h : s.blank = s'.blank) :
    s.query.form = s'.query.form := by
  apply Fragment.form_eq_of_blank_eq
  rw [blank_fragment, h, blank_fragment]

end Select

end SnapshotAnalytics

import SnapshotAnalytics.Query.Parameter

/-!
# Statements

A statement is built from pieces: fixed text and bound parameters. Its SQL text and its list of
parameters are two readings of the same pieces, so every placeholder has its parameter, in the same
order, and a value never becomes part of the text.
-/

namespace SnapshotAnalytics

/-- What is sent to a warehouse: a text and the parameters bound in it. -/
structure Query where
  sql : String
  parameters : List Parameter
  deriving DecidableEq

/-! ## §1 Fragments -/

/-- A piece of a statement. -/
inductive Piece where
  | text (s : String)
  | parameter (p : Parameter)
  deriving DecidableEq

abbrev Fragment := List Piece

namespace Fragment

/-- The text of a piece: a parameter shows as its placeholder. -/
def pieceChars : Piece → List Char
  | .text s => s.toList
  | .parameter p => p.placeholder

def chars (f : Fragment) : List Char :=
  f.flatMap pieceChars

def sql (f : Fragment) : String :=
  String.ofList f.chars

/-- The parameters of a fragment, from left to right. -/
def parameters (f : Fragment) : List Parameter :=
  f.filterMap fun
    | .text _ => none
    | .parameter p => some p

def query (f : Fragment) : Query :=
  ⟨f.sql, f.parameters⟩

def joined (between : String) : List Fragment → Fragment
  | [] => []
  | [f] => f
  | f :: fs => f ++ .text between :: joined between fs

def parenthesized (f : Fragment) : Fragment :=
  .text "(" :: f ++ [.text ")"]

def comparison (column symbol : String) (p : Parameter) : Fragment :=
  [.text s!"{column} {symbol} ", .parameter p]

end Fragment

/-! ## §2 Selections -/

/-- The direction of an ordering. -/
inductive OrderDirection where
  | ascending
  | descending
  deriving DecidableEq

namespace OrderDirection

def keyword : OrderDirection → String
  | ascending => "ASC"
  | descending => "DESC"

end OrderDirection

/-- A selected expression, which may be given a name. -/
structure Selected where
  expression : String
  alias? : Option String
  deriving DecidableEq

namespace Selected

def text (s : Selected) : String :=
  match s.alias? with
  | some name => s!"{s.expression} AS {name}"
  | none => s.expression

end Selected

/-- A column to order by; without a direction the order is ascending. -/
structure Ordered where
  column : String
  direction? : Option OrderDirection
  deriving DecidableEq

namespace Ordered

/-- A column to order by as text. -/
def text (o : Ordered) : String :=
  match o.direction? with
  | some direction => s!"{o.column} {direction.keyword}"
  | none => o.column

end Ordered

/-- A selection from one table; without selected expressions it selects all columns. -/
structure Select where
  table : String
  columns : List Selected := []
  conditions : List Fragment := []
  groups : List String := []
  order : List Ordered := []
  limit : Option Nat := none
  offset : Option Nat := none

namespace Select

/-- A clause with a keyword, left out when it lists nothing. -/
def clause (keyword : String) (listed : List String) : Fragment :=
  if listed.isEmpty then [] else [.text (keyword ++ ", ".intercalate listed)]

/-- The clause that bounds the rows; an offset needs a limit and zero is no offset. -/
def bounds (limit offset : Option Nat) : Fragment :=
  match limit with
  | none => []
  | some n =>
    -- the numbers are written into the text, not bound
    .text s!" LIMIT {n}" ::
      match offset with
      | none | some 0 => []
      | some skipped => [.text s!" OFFSET {skipped}"]

/-- The condition of a selection; all conditions have to hold. -/
def filtered (conditions : List Fragment) : Fragment :=
  if conditions.isEmpty then [] else .text " WHERE " :: Fragment.joined " AND " conditions

def fragment (s : Select) : Fragment :=
  let columns := if s.columns.isEmpty then "*" else ", ".intercalate (s.columns.map Selected.text)
  .text s!"SELECT {columns} FROM {s.table}" :: filtered s.conditions
    ++ clause " GROUP BY " s.groups ++ clause " ORDER BY " (s.order.map Ordered.text)
    ++ bounds s.limit s.offset

def query (s : Select) : Query :=
  s.fragment.query

end Select

end SnapshotAnalytics

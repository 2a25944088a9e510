/-!
# Searching, replacing and splitting

Plain operations on characters: whether one text occurs in another, replacing every occurrence from
left to right without overlap, and cutting a text at a separator, once or everywhere, or into lines.
-/

namespace SnapshotAnalytics.Text

/-- Whether `part` occurs somewhere in `s`. -/
def occurs (part : List Char) : List Char → Bool
  | [] => part.isEmpty
  | c :: s => part.isPrefixOf (c :: s) || occurs part s

/-- Replace the occurrences of `part`, found from left to right without overlap. The number counts
the characters of an occurrence that are still to be passed over. -/
def replaceFrom (part replacement : List Char) : Nat → List Char → List Char
  | _, [] => []
  | passing + 1, _ :: s => replaceFrom part replacement passing s
  | 0, c :: s =>
    if part.isPrefixOf (c :: s) then
      replacement ++ replaceFrom part replacement (part.length - 1) s
    else
      c :: replaceFrom part replacement 0 s

/-- Replace every occurrence of the non-empty `part`. -/
def replace (part replacement s : List Char) : List Char :=
  replaceFrom part replacement 0 s

/-- The pieces of a text between the separators; there is one more piece than separators. -/
def splitOn (separator : Char) : List Char → List (List Char)
  | [] => [[]]
  | c :: s =>
    if c = separator then
      [] :: splitOn separator s
    else
      match splitOn separator s with
      | [] => [[c]]
      | piece :: pieces => (c :: piece) :: pieces

/-- What stands before the first separator and what stands behind it, if there is a separator. -/
def cutAt? (separator : Char) : List Char → Option (List Char × List Char)
  | [] => none
  | c :: s =>
    if c = separator then
      some ([], s)
    else
      (cutAt? separator s).map fun (front, rest) => (c :: front, rest)

/-- A line without the carriage return that ends it, if there is one. -/
def dropCarriageReturn (line : List Char) : List Char :=
  match line.reverse with
  | '\r' :: rest => rest.reverse
  | _ => line

/-- The lines of a text. Lines end at a line feed, together with a carriage return right before it;
a text that ends with a line feed has no further empty line. -/
def lines (s : List Char) : List (List Char) :=
  match (splitOn '\n' s).reverse with
  | [] => []
  | [] :: ended => ended.reverse.map dropCarriageReturn
  | last :: ended => ended.reverse.map dropCarriageReturn ++ [last]

/-- A text filled up with blanks on the right to the given number of characters. -/
def padRight (width : Nat) (s : String) : String :=
  s ++ String.ofList (List.replicate (width - s.length) ' ')

end SnapshotAnalytics.Text

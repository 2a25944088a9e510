import SnapshotAnalytics.Text.Blank
import SnapshotAnalytics.Text.Casing

/-!
# Filter operators

An operator has many spellings, which are recognised without regard to case, to underscores and
dashes in place of spaces, and to blanks at the ends. A spelling that is not recognised is kept and
asks for equality.
-/

namespace SnapshotAnalytics

/-- How a field is compared with the values of a filter. -/
inductive Operator where
  | equals
  | notEquals
  | oneOf
  | contains
  | notContains
  | allOf
  | anyOf
  | noneOf
  | lessThan
  | greaterThan
  | lessOrEqual
  | greaterOrEqual
  | unrecognized (spelling : String)
  deriving DecidableEq

namespace Operator

def spelling : Operator → String
  | equals => "is"
  | notEquals => "is not"
  | oneOf => "is any of"
  | contains => "contains"
  | notContains => "does not contain"
  | allOf => "includes all"
  | anyOf => "includes any"
  | noneOf => "excludes all"
  | lessThan => "is before"
  | greaterThan => "is after"
  | lessOrEqual => "is on or before"
  | greaterOrEqual => "is on or after"
  | unrecognized spelling => spelling

/-- The folded spellings of the operators. -/
def spellings : List (String × Operator) :=
  [("is", equals), ("eq", equals), ("equals", equals), ("=", equals), ("==", equals),
    ("is not", notEquals), ("ne", notEquals), ("not equals", notEquals), ("!=", notEquals),
    ("<>", notEquals), ("is any of", oneOf), ("one of", oneOf), ("in", oneOf),
    ("contains", contains), ("like", contains), ("does not contain", notContains),
    ("not contains", notContains), ("not like", notContains), ("includes all", allOf),
    ("all of", allOf), ("includes any", anyOf), ("any of", anyOf), ("excludes all", noneOf),
    ("none of", noneOf), ("is before", lessThan), ("lt", lessThan), ("less than", lessThan),
    ("<", lessThan), ("is after", greaterThan), ("gt", greaterThan), ("greater than", greaterThan),
    (">", greaterThan), ("is on or before", lessOrEqual), ("lte", lessOrEqual),
    ("less or equal", lessOrEqual), ("<=", lessOrEqual), ("is on or after", greaterOrEqual),
    ("gte", greaterOrEqual), ("greater or equal", greaterOrEqual), (">=", greaterOrEqual)]

/-- A spelling without blanks at its ends, in lower case, with spaces for underscores and dashes. -/
def fold (s : String) : String :=
  String.ofList
    ((Text.lower (Text.trim s.toList)).map fun c => if c = '_' || c = '-' then ' ' else c)

def read (s : String) : Operator :=
  (spellings.lookup (fold s)).getD (unrecognized s)

/-- The symbol of an operator that compares by order. -/
def orderSymbol? : Operator → Option String
  | lessThan => some "<"
  | greaterThan => some ">"
  | lessOrEqual => some "<="
  | greaterOrEqual => some ">="
  | _ => none

def isSubstring : Operator → Bool
  | contains | notContains | allOf | anyOf | noneOf => true
  | _ => false

end Operator

end SnapshotAnalytics

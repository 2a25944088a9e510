import SnapshotAnalytics.Query.Statement

/-!
# Rankings

The groups of a breakdown are ordered by their main value, by one of up to three result slots, or by
their label, upwards or downwards.
-/

namespace SnapshotAnalytics

/-- What groups are ordered by. -/
inductive RankBy where
  | value
  | result1
  | result2
  | result3
  | group
  deriving DecidableEq

namespace RankBy

def name : RankBy → String
  | value => "value"
  | result1 => "result1"
  | result2 => "result2"
  | result3 => "result3"
  | group => "group"

def ofName? (s : String) : Option RankBy :=
  [value, result1, result2, result3, group].find? (·.name == s)

/-- The column of a statement that holds what groups are ordered by. -/
def column : RankBy → String
  | group => "group_key"
  | other => other.name

/-- The result slot that groups are ordered by, counted from zero. -/
def slot? : RankBy → Option Nat
  | result1 => some 0
  | result2 => some 1
  | result3 => some 2
  | value | group => none

end RankBy

namespace OrderDirection

def name : OrderDirection → String
  | ascending => "asc"
  | descending => "desc"

def ofName? (s : String) : Option OrderDirection :=
  [ascending, descending].find? (·.name == s)

end OrderDirection

end SnapshotAnalytics

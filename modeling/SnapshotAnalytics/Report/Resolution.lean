import SnapshotAnalytics.Cache.Key
import SnapshotAnalytics.Query.Result
import SnapshotAnalytics.Report.Cell
import SnapshotAnalytics.Table.Schema

/-!
# Resolving snapshots

A table has snapshots only for some days. The snapshot for a day is the latest one not after it, or,
looking forward, the earliest one not before it; where there is none, the day stands for itself.
-/

namespace SnapshotAnalytics

namespace Direction

def aggregate : Direction → String
  | backward => "maxOrNull"
  | forward => "minOrNull"

def symbol : Direction → String
  | backward => "<="
  | forward => ">="

end Direction

namespace Resolution

def select (t : TableSchema) (direction : Direction) (target : Date) : Select where
  table := t.name
  columns := [⟨s!"{direction.aggregate}({t.dateColumn})", some "snapshot"⟩]
  conditions := [t.dateCondition direction.symbol "target" target]

def key (t : TableSchema) (direction : Direction) (target : Date) : CacheKey :=
  .resolution t.name direction target

/-- The snapshot that an answer holds, or the day itself. -/
def snapshot (target : Date) (r : QueryResult) : Date :=
  ((r.cell? 0 "snapshot").bind Cell.date?).getD target

end Resolution

end SnapshotAnalytics

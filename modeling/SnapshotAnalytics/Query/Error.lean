/-!
# Errors of queries

Why a query was not answered: the warehouse could not be reached or refused it, or the query, its
parameters, the connection or the answer are not well formed.
-/

namespace SnapshotAnalytics

/-- Why a query was not answered. -/
inductive QueryError where
  | connection (reason : String)
  | execution (reason : String)
  | invalidSql (reason : String)
  | invalidParameter (name reason : String)
  | configuration (reason : String)
  | serialization (reason : String)
  deriving DecidableEq

namespace QueryError

def message : QueryError → String
  | connection reason => s!"connection failed: {reason}"
  | execution reason => s!"query execution failed: {reason}"
  | invalidSql reason => s!"invalid SQL: {reason}"
  | invalidParameter name reason => s!"invalid parameter '{name}': {reason}"
  | configuration reason => s!"configuration error: {reason}"
  | serialization reason => s!"serialization error: {reason}"

end QueryError

end SnapshotAnalytics

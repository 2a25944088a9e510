import SnapshotAnalytics.Text.Glob

/-!
# Errors of the store

The store can be unreachable, and a pattern of keys can be malformed. Beside errors, which are given
back, there are crashes, which nothing gives back: work that crashes just ends.
-/

namespace SnapshotAnalytics

/-- Why the store did not do what it was asked. -/
inductive StoreError where
  | unavailable (reason : String)
  | badPattern (pattern : String) (mistake : Text.GlobError)
  deriving DecidableEq

namespace StoreError

def message : StoreError → String
  | unavailable reason => s!"cache store unavailable: {reason}"
  | badPattern pattern mistake => s!"invalid key pattern '{pattern}': {mistake.message}"

end StoreError

/-- Why work ends early: with an error that it gives back, or with a crash. -/
inductive Halt (ε : Type) where
  | error (e : ε)
  | crash
  deriving DecidableEq

namespace Halt

variable {ε ε' : Type}

def map (change : ε → ε') : Halt ε → Halt ε'
  | error e => error (change e)
  | crash => crash

end Halt

end SnapshotAnalytics

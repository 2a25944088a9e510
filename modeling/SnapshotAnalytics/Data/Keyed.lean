/-!
# Keyed lists

A finite map is the list of its entries in ascending key order, each key once. Insertion keeps the
order, so a keyed list built by insertions is the same list whatever the order they came in, up to
which value a repeated key keeps: the last one.
-/

namespace SnapshotAnalytics.Keyed

variable {κ : Type} {α : Type} [Ord κ]

/-- Put a value under a key, in place of the one that is there. -/
def insert (k : κ) (v : α) : List (κ × α) → List (κ × α)
  | [] => [(k, v)]
  | (k', v') :: rest =>
    match compare k k' with
    | .lt => (k, v) :: (k', v') :: rest
    | .eq => (k, v) :: rest
    | .gt => (k', v') :: insert k v rest

def find? (k : κ) (entries : List (κ × α)) : Option α :=
  (entries.find? fun e => compare k e.1 == .eq).map (·.2)

def contains (k : κ) (entries : List (κ × α)) : Bool :=
  (find? k entries).isSome

/-- The entries without those under a key. -/
def erase (k : κ) (entries : List (κ × α)) : List (κ × α) :=
  entries.filter fun e => compare k e.1 != .eq

/-- The map with the given entries; of several under one key the last counts. -/
def ofList (entries : List (κ × α)) : List (κ × α) :=
  entries.foldl (fun m e => insert e.1 e.2 m) []

/-- Collect values under keys: ascending keys, the values of each in the order they came in. -/
def gather (entries : List (κ × α)) : List (κ × List α) :=
  entries.foldl (fun m e => insert e.1 ((find? e.1 m).getD [] ++ [e.2]) m) []

end SnapshotAnalytics.Keyed

import SnapshotAnalytics.Toml.Basic

/-!
# Assembling TOML tables

A document is a list of sections: the entries at its start, then headers, each with the entries
behind it. The path of an entry or header leads through tables, which are made where they are
missing. A table is known to be given by a header, implied by the header of a table inside it, or
made by a dotted key; which of these it is says what may still be added to it.
-/

namespace SnapshotAnalytics.Toml

/-- How a table came to be. -/
inductive Origin where
  | header
  | implied
  | dotted
  deriving DecidableEq

/-- A part of a document while it is assembled: a value, a table, or an array of tables. -/
inductive Node where
  | value (v : Toml)
  | table (origin : Origin) (members : List (String × Node))
  | tables (items : List (List (String × Node)))
  deriving Inhabited

abbrev Members := List (String × Node)

abbrev Entry := List String × Toml

/-- What stands at the head of a section: nothing, the path of a table, or the path of an array that
gets one more table. -/
inductive Heading where
  | start
  | table (path : List String)
  | tables (path : List String)

/-- A heading and the entries behind it. -/
structure Section where
  heading : Heading
  entries : List Entry

namespace Members

/-! ## §1 Changing members -/

def find? (members : Members) (name : String) : Option Node :=
  members.lookup name

/-- Set a member, in its place if there is one of its name and otherwise behind the others. -/
def put (name : String) (node : Node) : Members → Members
  | [] => [(name, node)]
  | (name', node') :: members =>
    if name' = name then (name, node) :: members else (name', node') :: put name node members

def drop (name : String) (members : Members) : Members :=
  members.filter (·.1 ≠ name)

/-- Change the members of the last table of an array. -/
def changeLast (change : Members → Option Members) : List Members → Option (List Members)
  | [] => none
  | [last] => (change last).map ([·])
  | members :: items => (changeLast change items).map (members :: ·)

/-- Change the members of the table behind a path of a header. -/
def changeBehind (change : Members → Option Members) : List String → Members → Option Members
  | [], members => change members
  | name :: path, members =>
    match find? members name with
    -- a table that only a path mentions is implied, and a header of its own may still come
    | none => (changeBehind change path []).map fun m => put name (.table .implied m) members
    | some (.table origin inner) =>
      (changeBehind change path inner).map fun m => put name (.table origin m) members
    | some (.tables items) =>
      (changeLast (changeBehind change path) items).map fun t => put name (.tables t) members
    | some (.value _) => none

/-! ## §2 Entries -/

def add (name : String) (v : Toml) (members : Members) : Option Members :=
  if (find? members name).isSome then none else some (members ++ [(name, .value v)])

/-- Add an entry to a table of the given origin, which a dotted key may pass through only if it was
not given by a header and may end in only if it was made by dotted keys; a plain key only adds to a
table that was not. -/
def addEntry (v : Toml) (origin : Origin) (dotted : Bool) :
    List String → Members → Option Members
  | [], _ => none
  | [name], members => if (origin = .dotted) = dotted then add name v members else none
  | name :: path, members =>
    match find? members name with
    | none =>
      (addEntry v .dotted true path []).map fun m => members ++ [(name, .table .dotted m)]
    | some (.table origin inner) =>
      if origin = .header then none
      else (addEntry v origin true path inner).map fun m => put name (.table origin m) members
    | some (.tables items) =>
      (changeLast (addEntry v .header true path) items).map fun t => put name (.tables t) members
    | some (.value _) => none

/-- Add entries to a table, one after the other. -/
def addEntries (entries : List Entry) (members : Members) : Option Members :=
  entries.foldlM (fun members entry => addEntry entry.2 .header false entry.1 members) members

/-! ## §3 Sections -/

/-- Fill the table of a header; only a table that was implied may be there already. -/
def fillTable (entries : List Entry) (name : String) (members : Members) : Option Members :=
  match find? members name with
  | none => (addEntries entries []).map fun m => members ++ [(name, .table .header m)]
  | some (.table .implied inner) =>
    (addEntries entries inner).map fun m => drop name members ++ [(name, .table .header m)]
  | some _ => none

def growTables (entries : List Entry) (name : String) (members : Members) : Option Members := do
  let items ← match find? members name with
    | none => some []
    | some (.tables items) => some items
    | some _ => none
  let added ← addEntries entries []
  return put name (.tables (items ++ [added])) members

def addSection (members : Members) (s : Section) : Option Members :=
  match s.heading with
  | .start => addEntries s.entries members
  | .table path => do
    changeBehind (fillTable s.entries (← path.getLast?)) path.dropLast members
  | .tables path => do
    changeBehind (growTables s.entries (← path.getLast?)) path.dropLast members

end Members

/-! ## §4 Values -/

mutual

def Node.toToml : Node → Toml
  | .value v => v
  | .table _ members => .table (Node.membersToToml members)
  | .tables items => .array (Node.itemsToToml items)

def Node.membersToToml : List (String × Node) → List (String × Toml)
  | [] => []
  | (name, node) :: members => (name, node.toToml) :: Node.membersToToml members

def Node.itemsToToml : List (List (String × Node)) → List Toml
  | [] => []
  | members :: items => .table (Node.membersToToml members) :: Node.itemsToToml items

end

def ofMembers (members : Members) : Toml :=
  .table (Node.membersToToml members)

def ofEntries? (entries : List Entry) : Option Toml :=
  (Members.addEntries entries []).map ofMembers

def ofSections? (sections : List Section) : Option Toml :=
  (sections.foldlM Members.addSection []).map ofMembers

end SnapshotAnalytics.Toml

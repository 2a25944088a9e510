/-!
# Parts of a record

A record is given by named members or by position. In both cases reading it comes down to the list
of its slots, one for each declared name, filled or empty; how an empty slot is filled is up to the
field. A declared name that is given twice makes the record unreadable; names that are not declared
are passed over.
-/

namespace SnapshotAnalytics

/-! ## §1 Parts -/

/-- The parts of a record as they were given. -/
inductive Parts (α : Type) where
  | named (members : List (String × α))
  | positional (items : List α)

namespace Parts

variable {α β : Type}

/-- The slot of a declared name: the one member of that name, or empty. -/
def slot? (members : List (String × α)) (name : String) : Option (Option α) :=
  match members.filter (·.1 == name) with
  | [] => some none
  | [member] => some (some member.2)
  -- a name given twice is refused, whatever stands under it
  | _ => none

/-- The slots of a record with the declared names. More items than names are too many. -/
def slots? (names : List String) : Parts α → Option (List (Option α))
  | named members => names.mapM (slot? members)
  | positional items =>
    if items.length ≤ names.length then
      some (items.map some ++ List.replicate (names.length - items.length) none)
    else
      none

end Parts

/-! ## §2 Slots -/

namespace Slot

variable {α β : Type}

def required (read : α → Option β) (slot : Option α) : Option β :=
  slot.bind read

/-- A field with a value of its own when it is not given. -/
def withDefault (value : β) (read : α → Option β) : Option α → Option β
  | none => some value
  | some part => read part

end Slot

end SnapshotAnalytics

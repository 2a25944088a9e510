import SnapshotAnalytics.Calendar.Text
import SnapshotAnalytics.Data.Parts
import SnapshotAnalytics.Json.Draft

/-!
# Reading typed values from drafts

The readers of texts, numbers, dates, lists, records and alternatives that typed requests and results
are made of. A reader gives nothing when the draft does not have the form it asks for.
-/

namespace SnapshotAnalytics.Json.Draft

/-! ## §1 Plain values -/

def text? : Draft → Option String
  | text s => some s
  | _ => none

def bool? : Draft → Option Bool
  | bool b => some b
  | _ => none

/-- A natural number below `2 ^ 64`, written as an integer. -/
def count? : Draft → Option Nat
  | number (.natural n) => some n.toNat
  | _ => none

/-- A number of any kind, as an amount. -/
def amount? : Draft → Option Binary64
  | number n => some n.toBinary64
  | _ => none

def date? (d : Draft) : Option Date :=
  d.text?.bind fun s => Date.readSpaced? s.toList

/-- A value of a type whose values are spelled by words. -/
def spelled? {α : Type} (read : String → Option α) (d : Draft) : Option α :=
  d.text?.bind read

/-- One of several alternatives, by its name: the name itself, or an object whose only member has
that name and is null. -/
def alternative? {α : Type} (read : String → Option α) : Draft → Option α
  | text s => read s
  | object [(name, null)] => read name
  | _ => none

/-- One of several alternatives in a record that another record takes in: beside null, an empty object
may stand under the name. -/
def mergedAlternative? {α : Type} (read : String → Option α) : Draft → Option α
  | object [(name, object [])] => read name
  | d => d.alternative? read

def orNull? {α : Type} (read : Draft → Option α) : Draft → Option (Option α)
  | null => some none
  | d => (read d).map some

def list? {α : Type} (read : Draft → Option α) : Draft → Option (List α)
  | array items => items.mapM read
  | _ => none

def texts? : Draft → Option (List String) :=
  list? text?

/-! ## §2 Records -/

/-- The parts of a record, named or by position. -/
def parts? : Draft → Option (Parts Draft)
  | object members => some (.named members)
  | array items => some (.positional items)
  | _ => none

/-- The slots of a record that is given by name or by position. -/
def slots? (names : List String) (d : Draft) : Option (List (Option Draft)) :=
  d.parts?.bind (Parts.slots? names)

/-- The slots of a record that takes in the fields of other records: those of its own fields, then
those of the fields taken in. Such a record is given by name, and of its members all but its own
stand for values. -/
def mergedSlots? (own taken : List String) : Draft → Option (List (Option Draft))
  | object members =>
    -- such members are held back as values before the records taken in are read from them
    (valuesOfMembers? (members.filter fun m => !own.contains m.1)).bind fun _ =>
      Parts.slots? (own ++ taken) (.named members)
  | _ => none

/-- A field that may be left out or null. -/
def optional {α : Type} (read : Draft → Option α) : Option Draft → Option (Option α) :=
  Slot.withDefault none (orNull? read)

end SnapshotAnalytics.Json.Draft

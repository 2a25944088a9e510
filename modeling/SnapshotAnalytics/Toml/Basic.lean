import SnapshotAnalytics.Data.Parts
import SnapshotAnalytics.Number.Binary64

/-!
# TOML values

Values of a TOML document and the readers that settings are taken from them with. A record can be
given as a table or, by position, as an array; in an array what is not declared is passed over like
undeclared names in a table.
-/

namespace SnapshotAnalytics

/-- A TOML value. -/
inductive Toml where
  | text (s : String)
  | integer (n : Int)
  | float (x : Binary64)
  | bool (b : Bool)
  | moment (s : String)
  | array (items : List Toml)
  | table (members : List (String × Toml))
  deriving Inhabited

namespace Toml

/-! ## §1 Plain values -/

def text? : Toml → Option String
  | text s => some s
  | _ => none

def bool? : Toml → Option Bool
  | bool b => some b
  | _ => none

def natural? : Toml → Option Nat
  | integer n => if 0 ≤ n then some n.toNat else none
  | _ => none

def isEmpty : Toml → Bool
  | array items => items.isEmpty
  | table members => members.isEmpty
  | _ => false

/-- One of several alternatives, by its name: the name itself, or a table that holds nothing under it
and has no other member. -/
def alternative? {α : Type} (read : String → Option α) : Toml → Option α
  | text s => read s
  | table [(name, v)] => if v.isEmpty then read name else none
  | _ => none

/-- The entries of a table, each read. -/
def entries? {α : Type} (read : Toml → Option α) : Toml → Option (List (String × α))
  | table members => members.mapM fun (name, v) => (read v).map fun x => (name, x)
  | _ => none

/-! ## §2 Records -/

/-- The slots of a record with the declared names. A date read as a record has none of them. -/
def slots? (names : List String) : Toml → Option (List (Option Toml))
  | table members => (Parts.named members).slots? names
  | array items => (Parts.positional (items.take names.length)).slots? names
  | moment _ => (Parts.named []).slots? names
  | _ => none

/-- A field that may be left out. -/
def optional {α : Type} (read : Toml → Option α) : Option Toml → Option (Option α) :=
  Slot.withDefault none fun v => (read v).map some

end Toml

end SnapshotAnalytics

import SnapshotAnalytics.Json.Basic
import SnapshotAnalytics.Json.Token

/-!
# JSON drafts

A draft is a JSON text as it was written: the members of its objects in their order, repeats
included. It is put together from tokens by a machine with a stack of the containers that are still
open. What is well formed but has no value is unreadable: a literal without a value, an object with a
key without a value, an array or object inside 127 others. A reader that does not need such a part
may pass it over.

A draft stands for a value if nothing in it is unreadable. The value has its members in ascending key
order, and of members with the same key the last counts.
-/

namespace SnapshotAnalytics.Json

/-- A JSON text as it was written. -/
inductive Draft where
  | null
  | bool (b : Bool)
  | number (n : Number)
  | text (s : String)
  | array (items : List Draft)
  | object (members : List (String × Draft))
  | unreadable
  deriving Inhabited

namespace Draft

/-! ## §1 Drafts and values -/

mutual

/-- The value that a draft stands for. -/
def value? : Draft → Option Json
  | null => some .null
  | bool b => some (.bool b)
  | number n => some (.number n)
  | text s => some (.text s)
  | array items => (valuesOfItems? items).map .array
  | object members => (valuesOfMembers? members).map fun m => .object (Keyed.ofList m)
  | unreadable => none

/-- The values of items, if each stands for one. -/
def valuesOfItems? : List Draft → Option (List Json)
  | [] => some []
  | d :: items => do
    let j ← value? d
    let js ← valuesOfItems? items
    return j :: js

/-- The values of members, if each stands for one. -/
def valuesOfMembers? : List (String × Draft) → Option (List (String × Json))
  | [] => some []
  | (key, d) :: members => do
    let j ← value? d
    let js ← valuesOfMembers? members
    return (key, j) :: js

end

mutual

def ofValue : Json → Draft
  | .null => null
  | .bool b => bool b
  | .number n => number n
  | .text s => text s
  | .array items => array (ofItems items)
  | .object members => object (ofMembers members)

def ofItems : List Json → List Draft
  | [] => []
  | j :: items => ofValue j :: ofItems items

def ofMembers : List (String × Json) → List (String × Draft)
  | [] => []
  | (key, j) :: members => (key, ofValue j) :: ofMembers members

end

/-! ## §2 Putting tokens together -/

/-- How many containers may be open at once. -/
def depthLimit : Nat := 127

/-- A container that is still open, its parts latest first. In an object, `key` is the key of the
member that is being read; a key can be without a value. -/
inductive Frame where
  | array (items : List Draft)
  | object (members : List (Option String × Draft)) (key : Option String)

/-- What may come next. -/
inductive Expecting where
  /-- A value, or also the end of the array that was just opened. -/
  | value (orEnd : Bool)
  /-- A key, or also the end of the object that was just opened. -/
  | key (orEnd : Bool)
  | colon
  /-- A comma or the end of the container. -/
  | separator
  /-- Nothing: the draft is complete. -/
  | nothing (complete : Draft)

/-- The open containers, innermost first, and what may come next. -/
structure State where
  stack : List Frame
  expecting : Expecting

namespace State

def initial : State := ⟨[], .value false⟩

def put (d : Draft) : List Frame → State
  | [] => ⟨[], .nothing d⟩
  | .array items :: rest => ⟨.array (d :: items) :: rest, .separator⟩
  | .object members key :: rest => ⟨.object ((key, d) :: members) key :: rest, .separator⟩

/-- The members with their keys, if each has one. -/
def keyed? : List (Option String × Draft) → Option (List (String × Draft))
  | [] => some []
  | (key, d) :: members => do
    let key ← key
    let rest ← keyed? members
    return (key, d) :: rest

/-- Close an array whose surrounding containers are `rest`. -/
def closeArray (items : List Draft) (rest : List Frame) : State :=
  put (if rest.length < depthLimit then .array items.reverse else unreadable) rest

/-- Close an object whose surrounding containers are `rest`. -/
def closeObject (members : List (Option String × Draft)) (rest : List Frame) : State :=
  match keyed? members.reverse with
  | some members => put (if rest.length < depthLimit then .object members else unreadable) rest
  | none => put unreadable rest

def step (state : State) (token : Token) : Option State :=
  match state.expecting, token, state.stack with
  | .value _, .openArray, stack => some ⟨.array [] :: stack, .value true⟩
  | .value _, .openObject, stack => some ⟨.object [] none :: stack, .key true⟩
  | .value _, .null, stack => some (put null stack)
  | .value _, .bool b, stack => some (put (bool b) stack)
  | .value _, .number (some n), stack => some (put (number n) stack)
  | .value _, .number none, stack => some (put unreadable stack)
  | .value _, .text (some s), stack => some (put (text s) stack)
  | .value _, .text none, stack => some (put unreadable stack)
  -- only an array just opened may close here: `[1,]` is refused
  | .value true, .closeArray, .array items :: rest => some (closeArray items rest)
  | .key _, .text key, .object members _ :: rest => some ⟨.object members key :: rest, .colon⟩
  | .key true, .closeObject, .object members _ :: rest => some (closeObject members rest)
  -- the key that was read stays in the frame, where `put` finds it
  | .colon, .colon, stack => some ⟨stack, .value false⟩
  | .separator, .comma, .array items :: rest => some ⟨.array items :: rest, .value false⟩
  | .separator, .comma, .object members key :: rest =>
    some ⟨.object members key :: rest, .key false⟩
  | .separator, .closeArray, .array items :: rest => some (closeArray items rest)
  | .separator, .closeObject, .object members _ :: rest => some (closeObject members rest)
  | _, _, _ => none

def run (state : State) : List Token → Option State
  | [] => some state
  | token :: tokens =>
    match state.step token with
    | none => none
    | some next => run next tokens

end State

def ofTokens? (tokens : List Token) : Option Draft :=
  match State.initial.run tokens with
  | some ⟨_, .nothing d⟩ => some d
  | _ => none

def ofChars? (s : List Char) : Option Draft :=
  (tokens? s).bind ofTokens?

def ofText? (s : String) : Option Draft :=
  ofChars? s.toList

end Draft

/-- The value that a text stands for. -/
def read? (s : String) : Option Json :=
  (Draft.ofText? s).bind Draft.value?

end SnapshotAnalytics.Json

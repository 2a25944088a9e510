import SnapshotAnalytics.Data.Keyed
import SnapshotAnalytics.Text.Glob

/-!
# The store

An expiring map from keys to values. An entry is live as long as its time has not come; entries that
are not live are cleared away when they are met and on every 256th write, so they are never shown.
Times are counted in nanoseconds, and there is a last one, the horizon: a write whose value would expire
behind it crashes and stores nothing.
-/

namespace SnapshotAnalytics

/-- Seconds in the unit of the clock. -/
def nanoseconds (seconds : Nat) : Nat :=
  1000000000 * seconds

/-- The last time of a clock that counts 64-bit seconds and a fraction. -/
def lastTime : Nat := 9223372036854775807999999999

/-- A stored value and the time at which it expires. -/
structure Stored (β : Type) where
  value : β
  expiresAt : Nat

/-- The entries in ascending key order and the number of writes so far. -/
structure Store (β : Type) where
  entries : List (String × Stored β)
  writes : Nat

namespace Store

variable {β : Type}

/-- The store without entries. -/
def empty : Store β := ⟨[], 0⟩

/-- How many writes there are from one clearing to the next. -/
def sweepEvery : Nat := 256

/-- Whether a stored value is live. -/
def isLive (now : Nat) (v : Stored β) : Bool :=
  now < v.expiresAt

/-- The entries that are live. -/
def live (now : Nat) (s : Store β) : List (String × Stored β) :=
  s.entries.filter fun e => isLive now e.2

/-- The live keys in ascending order. -/
def keys (now : Nat) (s : Store β) : List String :=
  (s.live now).map (·.1)

/-- The number of live entries. -/
def size (now : Nat) (s : Store β) : Nat :=
  (s.live now).length

/-- The live value under a key; an entry that is not live is removed. -/
def get (now : Nat) (key : String) (s : Store β) : Option β × Store β :=
  match Keyed.find? key s.entries with
  | none => (none, s)
  | some v =>
    if isLive now v then (some v.value, s) else (none, { s with entries := Keyed.erase key s.entries })

/-- Whether a value that is kept for some time expires at a time that there is. -/
def fits (horizon now ttl : Nat) : Bool :=
  now + ttl ≤ horizon

/-- The entries that are left when a write begins: some writes clear away. -/
def swept (now : Nat) (s : Store β) : List (String × Stored β) :=
  if (s.writes + 1) % sweepEvery = 0 then s.live now else s.entries

/-- What a write leaves behind. A write of a value whose time does not fit crashes, but only after it
was counted and has cleared away. -/
def set (horizon now : Nat) (key : String) (value : β) (ttl : Nat) (s : Store β) : Store β :=
  -- a clearing leaves out the entry being written, however short its time
  if fits horizon now ttl then
    ⟨Keyed.insert key ⟨value, now + ttl⟩ (s.swept now), s.writes + 1⟩
  else
    ⟨s.swept now, s.writes + 1⟩

/-- Remove the entries whose keys match a pattern; gives back how many of them were live. -/
def deleteMatching (now : Nat) (pattern : String) (s : Store β) :
    Except Text.GlobError (Nat × Store β) :=
  match Text.Glob.read pattern with
  | .error e => .error e
  | .ok tokens =>
    let hit (e : String × Stored β) : Bool := Text.Glob.accepts tokens e.1.toList
    let deleted := s.entries.filter fun e => hit e && isLive now e.2
    -- expired entries go too, without being counted
    .ok (deleted.length, { s with entries := s.entries.filter fun e => !hit e })

end Store

end SnapshotAnalytics

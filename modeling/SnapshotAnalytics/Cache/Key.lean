import SnapshotAnalytics.Calendar.Text
import SnapshotAnalytics.Digest.Sha256
import SnapshotAnalytics.Query.Statement

/-!
# Cache keys

An answer is stored under a key that is derived from the whole query, or under one that says what was
asked for: the kind of the report, the table, the snapshot, and short digests of all else.
-/

namespace SnapshotAnalytics

namespace CacheKey

/-! ## §1 Keys derived from queries -/

/-- The part of a derived key's material that a parameter makes up: a zero byte stands before its
name, its type and its value. -/
def parameterMaterial (p : Parameter) : List UInt8 :=
  0 :: Text.bytes p.name ++ 0 :: Text.bytes p.type.name ++ 0 :: Text.bytes p.value

/-- What a derived key is the digest of. -/
def material (q : Query) : List UInt8 :=
  Text.bytes q.sql ++ q.parameters.flatMap parameterMaterial

def derived (q : Query) : String :=
  "q:" ++ Digest.hexDigest (material q)

/-- A short digest of a JSON value. -/
def fingerprint (j : Json) : String :=
  Digest.shortDigest j.render

end CacheKey

/-! ## §2 Keys that say what was asked for -/

/-- In which direction a snapshot is looked for: the latest one not after a date, or the earliest one
not before it. -/
inductive Direction where
  | backward
  | forward
  deriving DecidableEq

namespace Direction

def name : Direction → String
  | backward => "backward"
  | forward => "forward"

def ofName? (s : String) : Option Direction :=
  [backward, forward].find? (·.name == s)

end Direction

/-- What an answer is stored under: the table, the date and digests of what else was asked for. -/
inductive CacheKey where
  | breakdown (table group : String) (snapshot : Date) (spec filters : String)
  | statCard (table : String) (snapshot : Date) (spec filters : String)
  | history (table : String) (base : Date) (spec filters : String)
  | maturity (table : String) (snapshot : Date) (spec filters : String)
  | resolution (table : String) (direction : Direction) (target : Date)
  deriving DecidableEq

namespace CacheKey

def text : CacheKey → String
  | breakdown table group snapshot spec filters =>
    s!"grouped:{table}:{group}:{snapshot}:{spec}:{filters}"
  | statCard table snapshot spec filters => s!"stat:{table}:{snapshot}:{spec}:{filters}"
  | history table base spec filters => s!"historical:{table}:{base}:{spec}:{filters}"
  | maturity table snapshot spec filters => s!"future:{table}:{snapshot}:{spec}:{filters}"
  | resolution table direction target => s!"snapshot:{table}:{direction.name}:{target}"

end CacheKey

end SnapshotAnalytics

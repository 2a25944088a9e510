import SnapshotAnalytics.Engine.Basic

/-!
# Batches of requests

The requests of a batch stand on lines of their own and are answered in order, each one in the state
that the ones before it left. Blank lines and lines that start with a number sign are passed over. Time
passes from one request to the next, and a request that crashes ends the batch.
-/

namespace SnapshotAnalytics.Batch

variable {m : Type → Type} [Monad m]

/-- The requests of a batch: its lines without blanks at their ends, comments and blank lines aside. -/
def requests (input : String) : List String :=
  ((Text.lines input.toList).map Text.trim).filterMap fun line =>
    if line.isEmpty || line.head? == some '#' then none else some (String.ofList line)

/-- The envelopes of the requests that were answered, and whether all were. -/
structure Answers where
  envelopes : List Envelope
  complete : Bool

/-- Answer requests in order; `around k` is where and when the request behind `k` others is answered. -/
def answerRequests (e : Engine) (around : Nat → Surroundings m) :
    List String → CacheM m Answers
  | [] => return ⟨[], true⟩
  | r :: rs => do
    match ← e.handleText (around 0) r with
    | some envelope =>
      let rest ← answerRequests e (fun k => around (k + 1)) rs
      return { rest with envelopes := envelope :: rest.envelopes }
    | none => return ⟨[], false⟩

def answer (e : Engine) (around : Nat → Surroundings m) (input : String) : CacheM m Answers :=
  answerRequests e around (requests input)

def print (pretty : Bool) (envelope : Envelope) : String :=
  if pretty then envelope.toJson.renderIndented else envelope.toJson.render

/-- How many requests there were, and how many of them failed. -/
structure Summary where
  requests : Nat
  failed : Nat
  deriving DecidableEq

def summary (envelopes : List Envelope) : Summary :=
  ⟨envelopes.length, (envelopes.filter fun envelope => !envelope.isSuccess).length⟩

end SnapshotAnalytics.Batch

import SnapshotAnalytics.CommandLine.Program
import SnapshotAnalytics.Warehouse.Wire
import Std.Async.DNS
import Std.Async.TCP
import Std.Time.DateTime

/-!
# The command line

What the program finds around it: files, standard input, the day by universal time, a clock that does
not run backwards, and a warehouse behind a network connection. All that is decided about them is decided
by `CommandLine.run`.
-/

namespace SnapshotAnalytics.CommandLine

/-! ## §1 Files and the day -/

def lookFor (path : String) : IO Found := do
  match ← (IO.FS.readFile path).toBaseIO with
  | .ok contents => return .text contents
  | .error (.noFileOrDirectory ..) => return .nothing
  | .error (.inappropriateType _ 21 _) => return .directory
  | .error (.inappropriateType ..) => return .behindFile
  | .error (.invalidArgument ..) => return .nameTooLong
  | .error (.permissionDenied ..) => return .unreadable "Permission denied (os error 13)"
  | .error _ => return .unreadable "stream did not contain valid UTF-8"

/-- The rest of what a stream holds. -/
partial def readAll (stream : IO.FS.Stream) (before : ByteArray) : IO ByteArray := do
  let bytes ← stream.read 65536
  if bytes.isEmpty then return before else readAll stream (before ++ bytes)

/-- The text on standard input. -/
def readInput : IO (Except String String) := do
  match String.fromUTF8? (← readAll (← IO.getStdin) .empty) with
  | some text => return .ok text
  | none => return .error "stream did not contain valid UTF-8"

def today : IO Date := do
  let day := Std.Time.PlainDate.ofEpochDay (← Std.Time.Timestamp.now).toDaysSinceUnixEpoch
  return (Date.of? day.year.toInt day.month.toNat day.day.toNat).getD .epoch

/-! ## §2 The network -/

def socketAddress (port : UInt16) : Std.Net.IPAddr → Std.Net.SocketAddress
  | .v4 address => .v4 ⟨address, port⟩
  | .v6 address => .v6 ⟨address, port⟩

/-- The bytes that arrive until a connection is closed. -/
partial def receive (client : Std.Async.TCP.Socket.Client) (before : ByteArray) : IO ByteArray := do
  match ← (client.recv? 65536).block with
  | some bytes => receive client (before ++ bytes)
  | none => return before

/-- Send a request to where it goes, and wait for the reply. -/
def exchange (r : HttpRequest) (d : Destination) : IO HttpReply := do
  let addresses ← (Std.Async.DNS.getAddrInfo d.host "").block
  match addresses[0]? with
  | none => return .unreachable "no address"
  | some address =>
    let client ← Std.Async.TCP.Socket.Client.mk
    (client.connect (socketAddress d.port.toUInt16 address)).block
    (client.send ⟨(r.wireBytes d).toArray⟩).block
    return .ofWire (← receive client .empty).toList

/-- How requests travel: each one over a connection of its own. -/
def network : Transport IO := fun r => do
  match Destination.ofUrl? r.url with
  | none => return (.unreachable "builder error", 0)
  | some d =>
    -- The time that passes is taken whether the warehouse can be reached or not.
    let began ← IO.monoMsNow
    let reply ← try
      exchange r d
    catch e =>
      pure (.unreachable (toString e))
    return (reply, (← IO.monoMsNow) - began)

end SnapshotAnalytics.CommandLine

open SnapshotAnalytics.CommandLine in
def main (args : List String) : IO UInt32 := do
  let world : World IO :=
    { file := lookFor, input := readInput, today := ← today, clock := IO.monoNanosNow
      transport := network, requestComplaint := fun _ => "not a request"
      rowComplaint := fun _ => "not a row" }
  let outcome ← run world (.read args)
  (← IO.getStdout).putStr outcome.output
  (← IO.getStderr).putStr outcome.errors
  return outcome.exit.toUInt32

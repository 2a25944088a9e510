import SnapshotAnalytics.Text.Blank
import SnapshotAnalytics.Text.Bytes
import SnapshotAnalytics.Text.Hexadecimal
import SnapshotAnalytics.Text.Search
import SnapshotAnalytics.Warehouse.Exchange

/-!
# Requests and replies as bytes

A request travels as HTTP/1.1 over a connection of its own, which is closed behind the reply. The head
of a reply ends at a blank line, and its fields say where the body ends: behind the last chunk, behind
the announced length, or where the connection is closed.
-/

namespace SnapshotAnalytics

/-! ## §1 Requests -/

/-- Where a request goes: the host and the port to connect to, and what is asked for there. -/
structure Destination where
  host : String
  port : Nat
  target : String
  deriving DecidableEq

namespace Destination

def scheme : List Char := "http://".toList

/-- The port unless a URL names another one. -/
def defaultPort : Nat := 80

/-- The port behind a host: a colon and digits, or nothing. -/
def port? : List Char → Option Nat
  | [] => some defaultPort
  | _ :: digits =>
    if digits.all Char.isDigit then
      (String.ofList digits).toNat?.filter (· < 65536)
    else
      none

def ofUrl? (url : String) : Option Destination :=
  if scheme.isPrefixOf url.toList then
    let inAuthority (c : Char) : Bool := c != '/' && c != '?'
    -- the target of the request is all that follows the host and the port
    let rest := url.toList.drop scheme.length
    let authority := rest.takeWhile inAuthority
    let host := authority.takeWhile (· != ':')
    if host.isEmpty then none
    else (port? (authority.drop host.length)).map fun port =>
      ⟨String.ofList host, port, String.ofList (rest.dropWhile inAuthority)⟩
  else
    none

end Destination

namespace HttpRequest

/-- The lines of the head of a request, which has no body. -/
def head (r : HttpRequest) (d : Destination) : List String :=
  [s!"GET {d.target} HTTP/1.1", s!"Host: {d.host}:{d.port}", "Accept: */*", "Connection: close"]
    ++ (r.authorization.map ("Authorization: " ++ ·)).toList ++ [""]

def wireBytes (r : HttpRequest) (d : Destination) : List UInt8 :=
  Text.bytes (String.join ((r.head d).map (· ++ "\r\n")))

end HttpRequest

/-! ## §2 Replies -/

namespace HttpReply

/-- The bytes before and behind the first place where the bytes of a mark stand. -/
def cutAt? (mark : List UInt8) : List UInt8 → Option (List UInt8 × List UInt8)
  | [] => none
  | b :: rest =>
    if mark.isPrefixOf (b :: rest) then some ([], (b :: rest).drop mark.length)
    else (cutAt? mark rest).map fun (before, behind) => (b :: before, behind)

/-- Bytes as characters, each byte one character. -/
def characters (bytes : List UInt8) : List Char :=
  bytes.map fun b => Char.ofNat b.toNat

def lineEnd : List UInt8 := [13, 10]

/-- The status in the first line of a head: the word behind the version. -/
def status? (line : List Char) : Option Nat :=
  match Text.splitOn ' ' line with
  | _ :: code :: _ => (String.ofList code).toNat?
  | _ => none

/-- The value of a field of a head, its name written in lower case. -/
def field? (name : String) (head : List (List Char)) : Option String :=
  head.findSome? fun line =>
    let name' := line.takeWhile (· != ':')
    if String.ofList (name'.map Char.toLower) == name then
      some (String.ofList (Text.trim (line.drop (name'.length + 1))))
    else
      none

/-- The size of a chunk, at the start of its first line. -/
def chunkSize? (line : List Char) : Option Nat :=
  match line.takeWhile fun c => (Text.hexValue? c).isSome with
  | [] => none
  | digits => some (Text.ofHexValues (digits.filterMap Text.hexValue?))

/-- Join the chunks of a body, of which there are not more than `limit`. -/
def joinChunks? (limit : Nat) (bytes : List UInt8) : Option (List UInt8) :=
  match limit with
  | 0 => none
  | limit + 1 => do
    let (line, rest) ← cutAt? lineEnd bytes
    let size ← chunkSize? (characters line)
    if size = 0 then
      return []
    else if rest.length < size then
      none
    else
      return rest.take size ++ (← joinChunks? limit (rest.drop (size + lineEnd.length)))

/-- The body behind a head, if all of it has arrived. -/
def bodyBytes? (head : List (List Char)) (bytes : List UInt8) : Option (List UInt8) :=
  if field? "transfer-encoding" head == some "chunked" then
    joinChunks? bytes.length bytes
  else
    match (field? "content-length" head).bind String.toNat? with
    | some n => if bytes.length < n then none else some (bytes.take n)
    -- without a length, the body ends with the connection
    | none => some bytes

/-- Read the bytes that arrived before the connection was closed. -/
def ofWire (bytes : List UInt8) : HttpReply :=
  match cutAt? (lineEnd ++ lineEnd) bytes with
  | none => .unreachable "connection closed before message completed"
  | some (head, rest) =>
    let head := Text.lines (characters head)
    match head.head?.bind status? with
    | none => .unreachable "invalid HTTP version parsed"
    | some status =>
      match (bodyBytes? head.tail rest).bind fun body => String.fromUTF8? ⟨body.toArray⟩ with
      | some body => .reply status body
      | none => .brokenReply status "error decoding response body"

end HttpReply

end SnapshotAnalytics

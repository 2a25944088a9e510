import SnapshotAnalytics.Cache.ReadThrough
import SnapshotAnalytics.Query.Guard
import SnapshotAnalytics.Text.Base64
import SnapshotAnalytics.Text.Percent
import SnapshotAnalytics.Warehouse.Connection
import SnapshotAnalytics.Warehouse.Rows

/-!
# Exchanges with a warehouse

A query is sent as an HTTP request whose URL holds the text and the parameters, each value percent
encoded; the reply holds the rows or says why there are none. How a request travels is left open: a
transport takes a request and gives the reply.
-/

namespace SnapshotAnalytics

/-! ## §1 Requests -/

/-- A request to a warehouse: the URL and the value of the authorization header. -/
structure HttpRequest where
  url : String
  authorization : Option String
  deriving DecidableEq

/-- What a request led to. The end of a reply can be lost. -/
inductive HttpReply where
  | unreachable (reason : String)
  | reply (status : Nat) (body : String)
  | brokenReply (status : Nat) (reason : String)

/-- How requests travel, with the effects of `m`: what a request led to, and after how many
milliseconds. -/
abbrev Transport (m : Type → Type) := HttpRequest → m (HttpReply × Nat)

namespace Transport

def offline {m : Type → Type} [Monad m] : Transport m :=
  fun _ => return (.unreachable "", 0)

end Transport

namespace Connection

/-- The URL of the warehouse without the slashes at its end. -/
def base (c : Connection) : List Char :=
  Text.dropEndWhile (· = '/') c.url.toList

/-- The arguments of a request: the database, the time limit, the parameters, and the query. -/
def arguments (c : Connection) (q : Query) : List (List Char × List Char) :=
  ("database".toList, c.database.toList)
    :: ("max_execution_time".toList, Nat.toDigits 10 c.maxExecutionTime)
    :: q.parameters.map (fun p => ("param_".toList ++ p.name.toList, p.value.toList))
    ++ [("query".toList, q.sql.toList)]

def argumentText (argument : List Char × List Char) : List Char :=
  argument.1 ++ '=' :: Text.percentEncode argument.2

def queryUrl (c : Connection) (q : Query) : String :=
  String.ofList (c.base ++ '/' :: '?' ::
    ['&'].intercalate ((c.arguments q).map argumentText))

def basicAuthorization (name password : String) : String :=
  "Basic " ++ String.ofList (Text.base64 (Text.bytes (name ++ ":" ++ password)))

def request (c : Connection) (q : Query) : HttpRequest :=
  ⟨c.queryUrl q, c.credentials.map fun (name, password) => basicAuthorization name password⟩

end Connection

/-! ## §2 Replies -/

namespace Warehouse

def reasonPhrases : List (Nat × String) :=
  [(100, "Continue"), (101, "Switching Protocols"), (102, "Processing"), (200, "OK"),
    (201, "Created"), (202, "Accepted"), (203, "Non Authoritative Information"),
    (204, "No Content"), (205, "Reset Content"), (206, "Partial Content"), (207, "Multi-Status"),
    (208, "Already Reported"), (226, "IM Used"), (300, "Multiple Choices"),
    (301, "Moved Permanently"), (302, "Found"), (303, "See Other"), (304, "Not Modified"),
    (305, "Use Proxy"), (307, "Temporary Redirect"), (308, "Permanent Redirect"),
    (400, "Bad Request"), (401, "Unauthorized"), (402, "Payment Required"), (403, "Forbidden"),
    (404, "Not Found"), (405, "Method Not Allowed"), (406, "Not Acceptable"),
    (407, "Proxy Authentication Required"), (408, "Request Timeout"), (409, "Conflict"),
    (410, "Gone"), (411, "Length Required"), (412, "Precondition Failed"),
    (413, "Payload Too Large"), (414, "URI Too Long"), (415, "Unsupported Media Type"),
    (416, "Range Not Satisfiable"), (417, "Expectation Failed"), (418, "I'm a teapot"),
    (421, "Misdirected Request"), (422, "Unprocessable Entity"), (423, "Locked"),
    (424, "Failed Dependency"), (425, "Too Early"), (426, "Upgrade Required"),
    (428, "Precondition Required"), (429, "Too Many Requests"),
    (431, "Request Header Fields Too Large"), (451, "Unavailable For Legal Reasons"),
    (500, "Internal Server Error"), (501, "Not Implemented"), (502, "Bad Gateway"),
    (503, "Service Unavailable"), (504, "Gateway Timeout"), (505, "HTTP Version Not Supported"),
    (506, "Variant Also Negotiates"), (507, "Insufficient Storage"), (508, "Loop Detected"),
    (510, "Not Extended"), (511, "Network Authentication Required")]

def statusText (status : Nat) : String :=
  let phrase := (reasonPhrases.lookup status).getD "<unknown status code>"
  s!"{status} {phrase}"

def isSuccess (status : Nat) : Bool :=
  200 ≤ status && status < 300

/-- The body of a reply, or why there is none. -/
def body : HttpReply → Except QueryError String
  | .unreachable reason => .error (.connection s!"ClickHouse connection failed: {reason}")
  | .reply status body =>
    if isSuccess status then .ok body
    else .error (.execution s!"ClickHouse error ({statusText status}): {body}")
  | .brokenReply status reason =>
    if isSuccess status then .error (.execution s!"failed to read response: {reason}")
    else .error (.execution s!"ClickHouse error ({statusText status}): ")

/-! ## §3 Queries -/

/-- A query as it is sent: without blanks at its ends and semicolons behind it, and asking for rows as
lines. -/
def sentText (sql : String) : String :=
  String.ofList
    (Text.dropEndWhile (· = ';') (Text.trim sql.toList) ++ " FORMAT JSONEachRow".toList)

section

variable {m : Type → Type} [Monad m] (send : Transport m) (complaint : List Char → String)
  (c : Connection)

/-- Answer a query. Only a reading query with proper parameters is sent. -/
def execute (q : Query) : m (Except QueryError QueryResult) := do
  match Guard.check q.sql, Parameter.check q.parameters with
  | .error e, _ => return .error e
  | _, .error e => return .error e
  | .ok (), .ok () =>
    let (reply, elapsedMs) ← send (c.request { q with sql := sentText q.sql })
    return body reply >>= readRows complaint elapsedMs

def health : m (Except QueryError Unit) := do
  let (reply, _) ← send (c.request ⟨"SELECT 1", []⟩)
  return (body reply).map fun _ => ()

def backend : Backend m where
  name := "clickhouse"
  answer _ q := execute send complaint c q
  health := health send c

end

end Warehouse

end SnapshotAnalytics

/-! # Messages of the web protocol

A `Request` asks a server for something, and an `Exchange` is what came of it. A `Server` is one for
rehearsals: it records the requests and answers them in turn. `statusText` is how a status reads in
messages. -/

namespace SpanRelay.Http

/-- What a request wants of a resource. -/
inductive Method
  | get
  | post
deriving DecidableEq, Repr

def Method.word : Method → String
  | get => "GET"
  | post => "POST"

/-- A request as it is sent to a server. -/
structure Request where
  method : Method
  url : String
  contentType : Option String
  authorization : Option String
  body : String
deriving DecidableEq, Repr

/-- What came of a request. -/
inductive Exchange
  | reply (status : Nat) (body : String)
  /-- No answer came in time. -/
  | timedOut (reason : String)
  /-- The server could not be reached, or broke off. -/
  | failed (reason : String)
deriving DecidableEq, Repr

/-- A status tells success. -/
def isSuccess (status : Nat) : Bool := 200 ≤ status && status < 300

/-- A server for rehearsals. -/
structure Server where
  /-- The answers in turn, the last one again and again. -/
  replies : List Exchange
  requests : List Request
deriving DecidableEq, Repr

namespace Server

/-- An address where nobody listens. -/
def unreachable : Server := ⟨[], []⟩

/-- The server after a request, and what came of it. -/
def exchange (s : Server) (r : Request) : Server × Exchange :=
  match s.replies with
  | [] => (s, .failed "connection refused")
  | [reply] => (⟨[reply], s.requests ++ [r]⟩, reply)
  | reply :: replies => (⟨replies, s.requests ++ [r]⟩, reply)

end Server

/-- The phrases that go with the known statuses. -/
def phrases : List (Nat × String) := [
  (100, "Continue"), (101, "Switching Protocols"), (102, "Processing"), (200, "OK"),
  (201, "Created"), (202, "Accepted"), (203, "Non Authoritative Information"),
  (204, "No Content"), (205, "Reset Content"), (206, "Partial Content"), (207, "Multi-Status"),
  (208, "Already Reported"), (226, "IM Used"), (300, "Multiple Choices"),
  (301, "Moved Permanently"), (302, "Found"), (303, "See Other"), (304, "Not Modified"),
  (305, "Use Proxy"), (307, "Temporary Redirect"), (308, "Permanent Redirect"),
  (400, "Bad Request"), (401, "Unauthorized"), (402, "Payment Required"), (403, "Forbidden"),
  (404, "Not Found"), (405, "Method Not Allowed"), (406, "Not Acceptable"),
  (407, "Proxy Authentication Required"), (408, "Request Timeout"), (409, "Conflict"),
  (410, "Gone"), (411, "Length Required"), (412, "Precondition Failed"),
  (413, "Payload Too Large"), (414, "URI Too Long"), (415, "Unsupported Media Type"),
  (416, "Range Not Satisfiable"), (417, "Expectation Failed"), (418, "I'm a teapot"),
  (421, "Misdirected Request"), (422, "Unprocessable Entity"), (423, "Locked"),
  (424, "Failed Dependency"), (425, "Too Early"), (426, "Upgrade Required"),
  (428, "Precondition Required"), (429, "Too Many Requests"),
  (431, "Request Header Fields Too Large"), (451, "Unavailable For Legal Reasons"),
  (500, "Internal Server Error"), (501, "Not Implemented"), (502, "Bad Gateway"),
  (503, "Service Unavailable"), (504, "Gateway Timeout"), (505, "HTTP Version Not Supported"),
  (506, "Variant Also Negotiates"), (507, "Insufficient Storage"), (508, "Loop Detected"),
  (510, "Not Extended"), (511, "Network Authentication Required")]

/-- A status as it stands in messages: the code and its phrase. -/
def statusText (status : Nat) : String :=
  let phrase := ((phrases.find? fun p => p.1 = status).map Prod.snd).getD "<unknown status code>"
  s!"{status} {phrase}"

end SpanRelay.Http

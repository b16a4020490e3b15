import SpanRelay.Config.Basic
import SpanRelay.Store.Bulk
import SpanRelay.Text.Base64

/-! # The store behind a server

An `HttpStore` sends each batch as one request to a search server. The server is a value too, so
that the store can be rehearsed. -/

namespace SpanRelay

/-- A search server and the settings for it. -/
structure HttpStore where
  config : StoreConfig
  server : Http.Server

namespace HttpStore

/-- The address of a path: slashes at the end of the endpoint do not count. -/
def url (c : StoreConfig) (path : String) : String :=
  let base := (c.endpoint.toList.reverse.dropWhile (· = '/')).reverse
  String.ofList (base ++ '/' :: path.toList)

/-- The credentials, where there is a user. -/
def authorization (c : StoreConfig) : Option String :=
  c.username.map fun user =>
    let pair := user ++ ":" ++ c.password.getD ""
    "Basic " ++ String.ofList (Text.base64 pair.toUTF8.toList)

/-- The request that indexes some documents. -/
def bulkRequest (c : StoreConfig) (index : String) (ds : List Document) : Http.Request where
  method := .post
  url := url c "_bulk"
  contentType := some "application/x-ndjson"
  authorization := authorization c
  body := Bulk.body index ds

/-- The store after some documents were sent to it, the events noted over it and the answer. No
documents need no request. -/
def bulkIndex (s : HttpStore) (index : String) (ds : List Document) :
    HttpStore × List Event × Answer :=
  if ds.isEmpty then (s, [], .ok ⟨[]⟩)
  else
    let (server, exchange) := s.server.exchange (bulkRequest s.config index ds)
    ({ s with server }, Bulk.answerOf ds exchange)

/-- The store as its writer meets it. -/
def sink : Sink HttpStore where
  name := "http"
  receive _ _ _ s := (s, 0)
  answer index ds s := s.bulkIndex index ds

/-! ### Health -/

/-- The request for the state of the server. -/
def healthRequest (c : StoreConfig) : Http.Request where
  method := .get
  url := url c "_cluster/health"
  contentType := none
  authorization := authorization c
  body := ""

/-- The state that a reply tells. -/
def stateOf (body : String) : String :=
  (((Json.read? body.toList).bind (Json.Fields.of? ["status"])).bind
    fun f => f.required "status" Json.text?).getD "unknown"

/-- Whether an exchange shows a server that works, with all of its copies or without. -/
def isHealthy : Http.Exchange → Bool
  | .reply status body =>
    Http.isSuccess status && (stateOf body = "green" || stateOf body = "yellow")
  | .timedOut _ | .failed _ => false

/-- The store after it was asked for its state, and whether it works. -/
def checkHealth (s : HttpStore) : HttpStore × Bool :=
  let (server, exchange) := s.server.exchange (healthRequest s.config)
  ({ s with server }, isHealthy exchange)

end HttpStore

end SpanRelay

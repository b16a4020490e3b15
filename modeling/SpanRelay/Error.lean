/-! # Errors

What can go wrong with a configuration or a store request. `RelayError.message` is the wording, and
`isRetryable` tells the errors after which a request may be sent again. -/

namespace SpanRelay

/-- What may go wrong, each kind with its reason where it has one. -/
inductive RelayError
  | config (reason : String)
  | serialization (reason : String)
  | transport (reason : String)
  | server (reason : String)
  | rejected (reason : String)
  | authentication (reason : String)
  | timeout (reason : String)
  | file (reason : String)
deriving DecidableEq, Repr

namespace RelayError

/-- The error in words: its kind and its reason. -/
def message : RelayError → String
  | config reason => s!"Configuration error: {reason}"
  | serialization reason => s!"Failed to serialize span: {reason}"
  | transport reason => s!"Store transport error: {reason}"
  | server reason => s!"Store server error: {reason}"
  | rejected reason => s!"Store rejected request: {reason}"
  | authentication reason => s!"Store authentication failed: {reason}"
  | timeout reason => s!"Timeout: {reason}"
  | file reason => s!"I/O error: {reason}"

/-- Whether the request that failed may succeed if it is sent again. -/
def isRetryable : RelayError → Bool
  | transport _ | server _ | timeout _ => true
  | config _ | serialization _ | rejected _ | authentication _ | file _ => false

/-- The error that lies under this one, where it only passes another on. -/
def cause? : RelayError → Option String
  | serialization reason | file reason => some reason
  | _ => none

/-- The text of an error, and of what lies under it. -/
def texts (e : RelayError) : List String := e.message :: e.cause?.toList

end RelayError

end SpanRelay

import SpanRelay.Error
import SpanRelay.Json.Basic
import SpanRelay.Text.Digits

/-! # Events

The warnings and errors by which the pipeline tells of lost telemetry. `Event.severity`,
`Event.message` and `Event.fields` are the log line of an event. -/

namespace SpanRelay

/-- How grave an event is. -/
inductive Severity
  | warning
  | error
deriving DecidableEq, Repr

def Severity.word : Severity → String
  | warning => "WARN"
  | error => "ERROR"

/-- Why the queue refuses a span. -/
inductive DropReason
  | overWatermark
  | queueFull
deriving DecidableEq, Repr

def DropReason.message : DropReason → String
  | overWatermark => "queue byte watermark exceeded"
  | queueFull => "write queue is full"

/-- A loss, or a failure that may become one. -/
inductive Event
  | dropped (spanId sessionId : String) (bytes queuedBytes total : Nat) (reason : DropReason)
  /-- Documents were rejected one by one and for good. -/
  | rejected (lost : Nat) (reasons : List String)
  /-- A request failed in a way that no repetition mends. -/
  | failed (lost : Nat) (error : RelayError)
  /-- The last repetition of a request failed. -/
  | exhausted (lost attempts errors : Nat) (reasons : List String)
  /-- A request failed and will be repeated. -/
  | retrying (remaining attempt delayMs : Nat)
  /-- The store answered for fewer documents than it was sent. -/
  | shortResponse (expected received : Nat) (errors : Bool)
deriving DecidableEq, Repr

/-- One character of a quoted text in a log line. -/
def logEscape (c : Char) : List Char :=
  if c = '"' then ['\\', '"']
  else if c = '\\' then ['\\', '\\']
  else if c = '\n' then ['\\', 'n']
  else if c = '\r' then ['\\', 'r']
  else if c = '\t' then ['\\', 't']
  else if c = '\x00' then ['\\', '0']
  else if c.toNat < 0x20 ∨ 0x7F ≤ c.toNat ∧ c.toNat < 0xA0 then
    '\\' :: 'u' :: '\x7b' :: (Text.hexDigits c.toNat ++ ['\x7d'])
  else [c]

/-- A text in quotes, as it stands in a log line. -/
def logQuoted (s : String) : List Char := '"' :: (s.toList.flatMap logEscape ++ ['"'])

/-- Texts in quotes, as a list in brackets. -/
def logList (ss : List String) : String :=
  String.ofList ('[' :: (([',', ' '].intercalate (ss.map logQuoted)) ++ [']']))

namespace Event

/-- An event is an error where documents are lost at the store, and else a warning. -/
def severity : Event → Severity
  | dropped .. | retrying .. | shortResponse .. => .warning
  | rejected .. | failed .. | exhausted .. => .error

/-- The message of an event, without its fields. -/
def message : Event → String
  | dropped .. => "Dropping span, telemetry is lossy under backpressure"
  | rejected .. => "Store rejected documents, not retrying"
  | failed .. => "Bulk write failed with a non-retryable error, documents lost"
  | exhausted .. => "Bulk write retries exhausted, documents lost"
  | retrying .. => "Bulk write failed, retrying"
  | shortResponse .. => "Bulk response shorter than request"

/-- What an event tells besides its message, by names. -/
def fields : Event → List (String × Json)
  | dropped spanId sessionId bytes queuedBytes total reason =>
    [("span_id", .text spanId), ("session_id", .text sessionId), ("bytes", .int bytes),
      ("queued_bytes", .int queuedBytes), ("dropped_total", .int total),
      ("reason", .text reason.message)]
  | rejected lost reasons => [("lost", .int lost), ("reasons", .text (logList reasons))]
  | failed lost error => [("lost", .int lost), ("error", .text error.message)]
  | exhausted lost attempts errors reasons =>
    [("lost", .int lost), ("attempts", .int attempts), ("errors", .int errors),
      ("reasons", .text (logList reasons))]
  | retrying remaining attempt delayMs =>
    [("remaining", .int remaining), ("attempt", .int attempt), ("delay_ms", .int delayMs)]
  | shortResponse expected received errors =>
    [("expected", .int expected), ("received", .int received), ("errors", .bool errors)]

/-- The spans that the event reports as lost. -/
def lost : Event → Nat
  | rejected n _ | failed n _ | exhausted n _ _ _ => n
  | dropped .. | retrying .. | shortResponse .. => 0

end Event

end SpanRelay

import SpanRelay.Record.Element
import SpanRelay.Record.Session
import SpanRelay.Record.Snapshot

/-! # Spans

A `Span` is one execution of one chain element. It is opened in progress, completed or abandoned
later, and carries the stamp of its session; its identity and its place under a parent never change.
A `SpanRef` is the handle by which it is completed. -/

namespace SpanRelay

/-- A short description of the failure that ended an execution. -/
structure ExceptionSummary where
  kind : String
  message : String
  stackTrace : Option String
deriving DecidableEq, Repr

namespace ExceptionSummary

def fieldNames : List String := ["kind", "message", "stack_trace"]

/-- The record as a value; an absent stack trace is left out. -/
def toJson (e : ExceptionSummary) : Json :=
  .object (
    Json.field "kind" (.text e.kind) ++
    Json.field "message" (.text e.message) ++
    Json.optionalField "stack_trace" .text e.stackTrace)

/-- The record read back. The stack trace may be left out. -/
def ofJson? (v : Json) : Option ExceptionSummary := do
  let f ← Json.Fields.of? fieldNames v
  return {
    kind := ← f.required "kind" Json.text?
    message := ← f.required "message" Json.text?
    stackTrace := ← f.optional "stack_trace" Json.text? }

end ExceptionSummary

/-- How an execution ended. -/
inductive Outcome
  | success
  | warning
  | failure (exception : ExceptionSummary)
deriving DecidableEq, Repr

namespace Outcome

/-- The status of a span that ended so. -/
def status : Outcome → Status
  | success => .completedNormally
  | warning => .completedWithWarnings
  | failure _ => .completedWithErrors

/-- Whether the execution failed. A warning is no failure. -/
def isFailure : Outcome → Bool
  | failure _ => true
  | success | warning => false

end Outcome

/-- The handle of an opened span. -/
structure SpanRef where
  sessionId : String
  spanId : String
deriving DecidableEq, Repr

namespace SpanRef

def fieldNames : List String := ["session_id", "span_id"]

def toJson (r : SpanRef) : Json :=
  .object (Json.field "session_id" (.text r.sessionId) ++ Json.field "span_id" (.text r.spanId))

def ofJson? (v : Json) : Option SpanRef := do
  let f ← Json.Fields.of? fieldNames v
  return {
    sessionId := ← f.required "session_id" Json.text?
    spanId := ← f.required "span_id" Json.text? }

end SpanRef

/-- One execution of one chain element. -/
structure Span where
  id : String
  sessionId : String
  elementId : String
  elementName : String
  typeTag : String
  /-- The span of the enclosing occurrence. -/
  parentId : Option String
  subChainId : Option String
  started : Timestamp
  finished : Option Timestamp
  durationMs : Option UInt64
  before : Option Snapshot
  after : Option Snapshot
  status : Status
  exception : Option ExceptionSummary
  stamp : Stamp

namespace Span

/-- A span in progress. -/
def opened (id sessionId : String) (element : Element) (parentId : Option String)
    (started : Timestamp) (stamp : Stamp) : Span where
  id := id
  sessionId := sessionId
  elementId := element.elementId
  elementName := element.name
  typeTag := element.typeTag
  parentId := parentId
  subChainId := element.subChainId
  started := started
  finished := none
  durationMs := none
  before := none
  after := none
  status := .inProgress
  exception := none
  stamp := stamp

/-- Whether no end of the execution is known yet. -/
def isInProgress (s : Span) : Bool := s.status = .inProgress

/-- The span with its outcome and what was captured afterwards. A failure leaves its summary; other
outcomes leave the summary as it is. -/
def complete (s : Span) (after : Option Snapshot) (outcome : Outcome) (finished : Timestamp) :
    Span :=
  { s with
    status := outcome.status
    exception := match outcome with
      | .failure exception => some exception
      | .success | .warning => s.exception
    after := after
    finished := some finished
    durationMs := some (s.started.elapsedMillis finished).toUInt64 }

/-- The span as one that never completed; a span that did is left as it is. -/
def abandon (s : Span) : Span :=
  if s.isInProgress then { s with status := .cancelledOrUnknown } else s

/-- The span with the session's fields renewed. -/
def stampWith (s : Span) (stamp : Stamp) : Span := { s with stamp := stamp }

/-- The bytes of the captured bodies, by which queued spans are weighed. -/
def estimatedBytes (s : Span) : Nat :=
  s.before.elim 0 Snapshot.bodyLength + s.after.elim 0 Snapshot.bodyLength

def fieldNames : List String :=
  ["id", "session_id", "chain_element_id", "element_name", "type_tag", "parent_element_id",
    "actual_element_chain_id", "started", "finished", "duration_ms", "before", "after",
    "execution_status", "exception"]

/-- The members of the written record: the span's own fields, then those of the stamp; absent ones
are left out. -/
def members (s : Span) : List (String × Json) :=
  Json.field "id" (.text s.id) ++
  Json.field "session_id" (.text s.sessionId) ++
  Json.field "chain_element_id" (.text s.elementId) ++
  Json.field "element_name" (.text s.elementName) ++
  Json.field "type_tag" (.text s.typeTag) ++
  Json.optionalField "parent_element_id" .text s.parentId ++
  Json.optionalField "actual_element_chain_id" .text s.subChainId ++
  Json.field "started" s.started.toJson ++
  Json.optionalField "finished" Timestamp.toJson s.finished ++
  Json.optionalField "duration_ms" Json.ofWord64 s.durationMs ++
  Json.optionalField "before" Snapshot.toJson s.before ++
  Json.optionalField "after" Snapshot.toJson s.after ++
  Json.field "execution_status" s.status.toJson ++
  Json.optionalField "exception" ExceptionSummary.toJson s.exception ++
  s.stamp.members

/-- The record as a value, the fields of the stamp behind its own. -/
def toJson (s : Span) : Json := .object s.members

/-- The record a value holds: an object with the fields of the span and of the stamp side by side.
Members that are not the span's own are looked at as a whole, so each has to be readable. -/
def ofJson? : Json → Option Span
  | .object ms => do
    let f ← Json.Fields.ofMembers? fieldNames ms
    let others := ms.filter fun m => !fieldNames.contains m.1
    let g ← if Json.readableMembers others then Json.Fields.ofMembers? Stamp.fieldNames others
      else none
    return {
      id := ← f.required "id" Json.text?
      sessionId := ← f.required "session_id" Json.text?
      elementId := ← f.required "chain_element_id" Json.text?
      elementName := ← f.required "element_name" Json.text?
      typeTag := ← f.required "type_tag" Json.text?
      parentId := ← f.optional "parent_element_id" Json.text?
      subChainId := ← f.optional "actual_element_chain_id" Json.text?
      started := ← f.required "started" Timestamp.ofJson?
      finished := ← f.optional "finished" Timestamp.ofJson?
      durationMs := ← f.optional "duration_ms" Json.word64?
      before := ← f.optional "before" Snapshot.ofJson?
      after := ← f.optional "after" Snapshot.ofJson?
      status := ← f.required "execution_status" Status.ofJson?
      exception := ← f.optional "exception" ExceptionSummary.ofJson?
      stamp := ← Stamp.ofFields? g }
  | _ => none

end Span

end SpanRelay

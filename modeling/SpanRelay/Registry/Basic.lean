import SpanRelay.Registry.Cache
import SpanRelay.Registry.Parent

/-! # The registry

The `Registry` owns what is kept for each session: its record with the failure flag, its cached
spans, its slot and its execution map. Each start of a session is a registration with a number of
its own; a hook that has found a session goes on with that registration, even if the session has
been cleared or started anew in the meantime. Only a session that is registered gets anything
cached. -/

namespace SpanRelay

/-- A session's record and whether a failure has switched it to full tracking. -/
structure Registration where
  session : Session
  failureSeen : Bool
deriving DecidableEq, Repr

/-- What is kept for the sessions. -/
structure Registry where
  /-- The registrations by their numbers, those that are over included. -/
  registrations : List Registration
  /-- The registration of each session that is registered. -/
  current : Map.Table String Nat
  spans : SpanCache
  slots : SlotCache
  executions : Map.Table String ExecutionMap

namespace Registry

/-- A registry before any session was registered. -/
def empty : Registry := ⟨[], .empty, .empty, .empty, .empty⟩

/-- The registration of a session, if it is registered. -/
def find? (r : Registry) (sessionId : String) : Option Nat := r.current.get? sessionId

/-- Whether a session is going on. -/
def isRegistered (r : Registry) (sessionId : String) : Bool := (r.find? sessionId).isSome

/-- The registration of a number, the present one of its session or an old one. -/
def registration? (r : Registry) (number : Nat) : Option Registration := r.registrations[number]?

/-- The present registration of a session. -/
def get? (r : Registry) (sessionId : String) : Option Registration :=
  (r.find? sessionId).bind r.registration?

/-- How many sessions are going on. -/
def size (r : Registry) : Nat := r.current.size

/-- The registry with a session registered, in place of an earlier one of its id. What is cached
for that id stays. -/
def put (r : Registry) (session : Session) : Registry :=
  { r with
    registrations := r.registrations ++ [⟨session, false⟩]
    current := r.current.insert session.id r.registrations.length }

/-- The registry with one registration changed, wherever a hook may still hold it. -/
def modify (r : Registry) (number : Nat) (f : Registration → Registration) : Registry :=
  { r with registrations := r.registrations.modify number f }

/-- The registry with the failure flag of a registration set. -/
def markFailure (r : Registry) (number : Nat) : Registry :=
  r.modify number fun g => { g with failureSeen := true }

/-- The registry without a session and without anything cached for it. -/
def clear (r : Registry) (sessionId : String) : Registry :=
  { r with
    current := r.current.erase sessionId
    spans := r.spans.remove sessionId
    slots := r.slots.clear sessionId
    executions := r.executions.erase sessionId }

/-- The registry with a span cached, unless the session is not registered. -/
def upsertSpan (r : Registry) (sessionId : String) (span : Span) : Registry :=
  if r.isRegistered sessionId then { r with spans := r.spans.insert sessionId span } else r

/-- The registry with a session's slot overwritten, unless the session is not registered. -/
def putLast (r : Registry) (sessionId : String) (span : Span) : Registry :=
  if r.isRegistered sessionId then { r with slots := r.slots.put sessionId span } else r

/-- The registry with the held span of a session moved to its cached spans, and the id of the span
that was moved. -/
def promote (r : Registry) (sessionId : String) : Registry × Option String :=
  match r.slots.held? sessionId with
  | none => (r, none)
  | some span =>
    let emptied := { r with slots := r.slots.clear sessionId }
    if r.isRegistered sessionId then (emptied.upsertSpan sessionId span, some span.id)
    else (emptied, none)

/-- The registry with a span recorded as the latest of an execution key, unless the session is not
registered. -/
def recordExecution (r : Registry) (sessionId key spanId : String) : Registry :=
  if r.isRegistered sessionId then
    { r with
      executions := r.executions.insert sessionId
        (((r.executions.get? sessionId).getD .empty).insert key spanId) }
  else r

/-- The span that should contain a new child of a session. -/
def resolveParent? (r : Registry) (sessionId : String) (hint : ParentHint) : Option String := do
  let executions ← r.executions.get? sessionId
  SpanRelay.resolveParent? hint executions ((r.spans.view? sessionId).map Map.Table.values)

end Registry

end SpanRelay

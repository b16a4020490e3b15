import SpanRelay.Policy
import SpanRelay.Registry.Basic

/-! # Hooks

A `Hook` is what the engine reports about a running session. It works in two steps: `Hook.find?`
looks the session's registration up, and `Hook.body` does the work, under the lock of that
registration, on a registry that may have changed in between. The result is the new registry and the
spans to be written. -/

namespace SpanRelay

/-- A report of the engine about a session. -/
inductive Hook
  /-- An element is about to be executed; its span gets the given id. -/
  | before (sessionId spanId : String) (element : Element) (parent : Option ParentHint)
      (payload : Snapshot) (now : Timestamp)
  /-- The execution of a span has ended. -/
  | after (ref : SpanRef) (payload : Snapshot) (outcome : Outcome) (now : Timestamp)
  /-- A session has ended. -/
  | finish (sessionId : String) (status : Status) (finished : Timestamp) (durationMs : UInt64)
  /-- A session has got a correlation id. -/
  | correlate (sessionId correlationId : String)

/-- What a hook leaves. -/
structure HookResult where
  registry : Registry
  /-- The spans to be written, in their order. -/
  spans : List Span
  /-- Whether the hook met a session that was registered. -/
  accepted : Bool

namespace HookResult

/-- A hook that finds nothing to do leaves the registry and hands nothing over. -/
def ignored (r : Registry) : HookResult := ⟨r, [], false⟩

/-- The registry changed and the spans are to be written. -/
def done (r : Registry) (spans : List Span) : HookResult := ⟨r, spans, true⟩

end HookResult

/-- The session and the failure flag that a hook reads under the lock, with the policy. -/
structure HookScope where
  policy : Policy
  number : Nat
  session : Session
  failureSeen : Bool

namespace HookScope

/-- How the spans of the session are kept. -/
def tracking (h : HookScope) : Tracking :=
  .of h.session.level h.session.sampled h.failureSeen

/-- What the level and the policy retain of a message at an element. -/
def retained (h : HookScope) (elementId : String) (payload : Snapshot) : Option Snapshot :=
  payload.filtered h.session.level (h.policy.capturePayload h.session.chainId elementId)

/-- The span with its outcome and what is retained of the message. -/
def completed (h : HookScope) (payload : Snapshot) (outcome : Outcome) (now : Timestamp)
    (span : Span) : Span :=
  span.complete (h.retained span.elementId payload) outcome now

/-! ### Before an execution -/

/-- The span of an execution that begins. -/
def openedSpan (h : HookScope) (r : Registry) (sessionId spanId : String) (element : Element)
    (parent : Option ParentHint) (payload : Snapshot) (now : Timestamp) : Span :=
  let parentId := parent.bind fun hint => r.resolveParent? sessionId hint
  { Span.opened spanId sessionId element parentId now h.session.stamp with
    before := h.retained element.elementId payload }

/-- A new span is kept as the session is tracked. A span for the full cache that comes too late is
written at once, as one that never completed. -/
def keep (h : HookScope) (r : Registry) (sessionId : String) (span : Span) : HookResult :=
  match h.tracking with
  | .skip => .ignored r
  | .lastOnly => .done (r.putLast sessionId span) []
  | .full =>
    if r.isRegistered sessionId then .done (r.upsertSpan sessionId span) []
    else .done r [span.abandon]

/-- The work of the hook that opens a span: unless the session is skipped, the execution is recorded and
the span is kept. -/
def before (h : HookScope) (r : Registry) (sessionId spanId : String) (element : Element)
    (parent : Option ParentHint) (payload : Snapshot) (now : Timestamp) : HookResult :=
  if h.tracking = .skip then .ignored r
  else
    let span := h.openedSpan r sessionId spanId element parent payload now
    h.keep (r.recordExecution sessionId element.executionKey spanId) sessionId span

/-! ### After an execution -/

/-- The end of a span in the full cache. -/
def afterCached (r : Registry) (ref : SpanRef) (complete : Span → Span) : HookResult :=
  let r := { r with spans := r.spans.modify ref.sessionId ref.spanId complete }
  .done r (r.spans.get? ref.sessionId ref.spanId).toList

/-- The failure of the held span: it moves to the full cache and is written. -/
def afterHeldFailure (h : HookScope) (r : Registry) (ref : SpanRef) (span : Span) : HookResult :=
  let r := { r with slots := r.slots.clear ref.sessionId }.markFailure h.number
  .done (r.upsertSpan ref.sessionId span) [span]

/-- The failure of a span that is not kept any more: the session is fully tracked from now on, and
the held span moves to the full cache and is written as it is. -/
def afterLostFailure (h : HookScope) (r : Registry) (ref : SpanRef) : HookResult :=
  let (r, promoted) := (r.markFailure h.number).promote ref.sessionId
  .done r (promoted.bind fun spanId => r.spans.get? ref.sessionId spanId).toList

/-- The work of the hook that ends a span. A span that is not cached is looked for in the slot, and its
failure makes what is held there cached. -/
def after (h : HookScope) (r : Registry) (ref : SpanRef) (payload : Snapshot) (outcome : Outcome)
    (now : Timestamp) : HookResult :=
  let complete := h.completed payload outcome now
  if !r.isRegistered ref.sessionId then .ignored r
  else if r.spans.contains ref.sessionId ref.spanId then afterCached r ref complete
  else if !outcome.isFailure then
    .done { r with slots := r.slots.modify ref.sessionId ref.spanId complete } []
  else
    match r.slots.heldAs? ref.sessionId ref.spanId with
    | some held => h.afterHeldFailure r ref (complete held)
    | none => if h.session.level = .error then h.afterLostFailure r ref else .done r []

/-! ### Sessions -/

/-- Whether the end of a session is its first failure, of the kind that switches the tracking. -/
def failsAtEnd (h : HookScope) (status : Status) : Bool :=
  status = .completedWithErrors && h.session.level = .error && !h.failureSeen

/-- The work of a hook at the end of a session: every cached span gets the final stamp and is
written, as one that never completed if it is still in progress, and nothing of the session stays. -/
def finish (h : HookScope) (r : Registry) (sessionId : String) (status : Status)
    (finished : Timestamp) (durationMs : UInt64) : HookResult :=
  if !r.isRegistered sessionId then .ignored r
  else
    let session := h.session.finish status finished durationMs
    let r := r.modify h.number fun g => { g with session }
    let r := if h.failsAtEnd status then ((r.markFailure h.number).promote sessionId).1 else r
    let close (span : Span) : Span := (span.stampWith session.stamp).abandon
    let spans := ((r.spans.view? sessionId).elim [] Map.Table.values).map close
    .done (r.clear sessionId) spans

/-- The work of the hook that brings a correlation id: it is put on the session, and on no span yet. -/
def correlate (h : HookScope) (r : Registry) (sessionId correlationId : String) : HookResult :=
  if !r.isRegistered sessionId then .ignored r
  else
    .done (r.modify h.number fun g =>
      { g with session := { g.session with correlationId := some correlationId } }) []

end HookScope

namespace Hook

/-- The session that a hook is called for. -/
def sessionId : Hook → String
  | before sessionId .. | finish sessionId .. | correlate sessionId _ => sessionId
  | after ref .. => ref.sessionId

/-- The first step: the registration of the session. -/
def find? (hook : Hook) (r : Registry) : Option Nat := r.find? hook.sessionId

/-- The second step: the work with the registration that was found. -/
def body (policy : Policy) (hook : Hook) (number : Nat) (r : Registry) : HookResult :=
  match r.registration? number with
  | none => .ignored r
  | some g =>
    let h : HookScope := ⟨policy, number, g.session, g.failureSeen⟩
    match hook with
    | before sessionId spanId element parent payload now =>
      h.before r sessionId spanId element parent payload now
    | after ref payload outcome now => h.after r ref payload outcome now
    | finish sessionId status finished durationMs =>
      h.finish r sessionId status finished durationMs
    | correlate sessionId correlationId => h.correlate r sessionId correlationId

/-- Both steps without anything in between. -/
def run (policy : Policy) (hook : Hook) (r : Registry) : HookResult :=
  match hook.find? r with
  | none => .ignored r
  | some number => hook.body policy number r

end Hook

end SpanRelay

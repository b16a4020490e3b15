import SpanRelay.Map.Table
import SpanRelay.Record.Span

/-! # Parents of repeated elements

The execution map of a session tells, for each execution key, the span latest assigned to it. Where
an element can be executed several overlapping times, that span need not be the one that encloses a
new child: `resolveParent?` walks on from it, from span to open child of the same element, to the
innermost one. -/

namespace SpanRelay

/-- The span latest assigned to each execution key. -/
abbrev ExecutionMap := Map.Table String String

/-- Whether `span` is a step of the walk from `parentId`: an open child of it that executes the
hinted element and is the latest of its execution key. -/
def isParentStep (hint : ParentHint) (executions : ExecutionMap) (parentId : String)
    (span : Span) : Bool :=
  span.parentId = some parentId && span.elementId = hint.elementId
    && executions.values.contains span.id && span.isInProgress

/-- The end of the walk from `spanId`: the first span without a step, or one that was visited
before. -/
def walkDown (hint : ParentHint) (executions : ExecutionMap) (spans : List Span) :
    Nat → List String → String → String
  | 0, _, spanId => spanId
  | fuel + 1, visited, spanId =>
    if visited.contains spanId then spanId
    else
      match spans.find? (isParentStep hint executions spanId) with
      | none => spanId
      | some span => walkDown hint executions spans fuel (spanId :: visited) span.id

/-- The span that should contain a new child, if the hinted element was ever executed. Every step
of the walk visits another span, so it has no more steps than there are spans. -/
def resolveParent? (hint : ParentHint) (executions : ExecutionMap) (spans : Option (List Span)) :
    Option String := do
  let candidate ← executions.get? hint.executionKey
  match hint.hasIntermediateParents, spans with
  | true, some spans => return walkDown hint executions spans (spans.length + 1) [] candidate
  | _, _ => return candidate

end SpanRelay

import SpanRelay.Account
import SpanRelay.Record.Span

/-! # The write queue

A `WriteQueue` hands spans from the hooks to the writer. It holds a bounded number of elements, and
a `Budget` bounds the bytes of those that were accepted and not yet released. Nothing waits: a span
that does not fit is refused, and `schedule` notes the first refusal and every hundredth after it. -/

namespace SpanRelay

/-- A span with its estimated bytes, so that the budget can be released without weighing again. -/
structure QueueElement where
  span : Span
  size : Nat

namespace QueueElement

/-- A span with its estimate, as it is queued. -/
def of (span : Span) : QueueElement := ⟨span, span.estimatedBytes⟩

/-- The id of the span. -/
def id (e : QueueElement) : String := e.span.id

end QueueElement

/-- One more than the greatest count of bytes, which is a number of 64 bits. -/
def byteRange : Nat := Word.range 64

/-- The bytes in use, with a ceiling. -/
structure Budget where
  used : Nat
  capacity : Nat
deriving DecidableEq, Repr

namespace Budget

/-- A budget of which nothing is used. -/
def of (capacity : Nat) : Budget := ⟨0, capacity⟩

/-- The budget with `bytes` more in use, unless that is more than the capacity. The sum stops at
the greatest count. -/
def acquire? (b : Budget) (bytes : Nat) : Option Budget :=
  let next := min (b.used + bytes) (byteRange - 1)
  if b.capacity < next then none else some { b with used := next }

/-- The budget with `bytes` fewer in use. The difference wraps below zero. -/
def release (b : Budget) (bytes : Nat) : Budget :=
  { b with used := (b.used + (byteRange - bytes % byteRange)) % byteRange }

theorem used_release {b : Budget} {bytes : Nat} (h : bytes ≤ b.used) (hb : b.used < byteRange) :
    (b.release bytes).used = b.used - bytes := by
  rw [byteRange, Word.range_64] at hb
  simp only [release, byteRange, Word.range_64]
  omega

end Budget

/-- The spans between the hooks and the writer. -/
structure WriteQueue where
  capacity : Nat
  budget : Budget
  /-- The elements, the oldest first. -/
  elements : List QueueElement
  /-- Whether the writer has stopped to accept elements. -/
  closed : Bool
  /-- Whether nobody is left who could offer a span. -/
  orphaned : Bool

/-- What became of a span offered to the queue. -/
inductive ScheduleOutcome
  | queued
  | droppedOverWatermark
  | droppedQueueFull
  | closed
deriving DecidableEq, Repr

/-- The name of the outcome in reports. -/
def ScheduleOutcome.word : ScheduleOutcome → String
  | queued => "Queued"
  | droppedOverWatermark => "DroppedOverWatermark"
  | droppedQueueFull => "DroppedQueueFull"
  | closed => "Closed"

/-- One refusal is noted, and then one of this many. -/
def dropNoteInterval : Nat := 100

namespace WriteQueue

/-- The open queue of the given limits without elements. -/
def of (capacity maxBytes : Nat) : WriteQueue := ⟨capacity, .of maxBytes, [], false, false⟩

/-- The estimated bytes of the elements that were accepted and not yet released. -/
def queuedBytes (q : WriteQueue) : Nat := q.budget.used

/-- The account with the refusal of an element, noted if it is its turn. -/
def accountDrop (q : WriteQueue) (a : Account) (e : QueueElement) (reason : DropReason) :
    Account :=
  let previous := a.tally.dropped
  let a := a.addDropped 1
  if previous % dropNoteInterval = 0 then
    a.note (.dropped e.id e.span.sessionId e.size q.queuedBytes (previous + 1) reason)
  else a

/-- Offers a span: it is accepted if the queue is open and neither limit is exceeded. A closed
queue discards it without account. -/
def schedule (q : WriteQueue) (a : Account) (span : Span) :
    WriteQueue × Account × ScheduleOutcome :=
  let e := QueueElement.of span
  match q.budget.acquire? e.size with
  | none => (q, q.accountDrop a e .overWatermark, .droppedOverWatermark)
  | some budget =>
    if q.closed then ({ q with budget := budget.release e.size }, a, .closed)
    else if q.elements.length < q.capacity then
      ({ q with budget, elements := q.elements ++ [e] }, a.addScheduled 1, .queued)
    else
      let q := { q with budget := budget.release e.size }
      (q, q.accountDrop a e .queueFull, .droppedQueueFull)

/-- Takes out up to `max` elements, the oldest first; their bytes stay in use. -/
def drain (q : WriteQueue) (max : Nat) : List QueueElement × WriteQueue :=
  (q.elements.take max, { q with elements := q.elements.drop max })

/-- The queue with the bytes of an element released. -/
def release (q : WriteQueue) (e : QueueElement) : WriteQueue :=
  { q with budget := q.budget.release e.size }

/-- The queue that accepts no more elements; those in it can still be taken out. -/
def close (q : WriteQueue) : WriteQueue := { q with closed := true }

/-- The queue to which nobody is left to offer a span. -/
def orphan (q : WriteQueue) : WriteQueue := { q with orphaned := true }

/-- Whether the writer will never get another element. -/
def isExhausted (q : WriteQueue) : Bool := q.elements.isEmpty && (q.closed || q.orphaned)

/-- The queue whose writer is gone: closed, its elements lost and their bytes still in use. -/
def abandon (q : WriteQueue) : WriteQueue := { q with elements := [], closed := true }

end WriteQueue

end SpanRelay

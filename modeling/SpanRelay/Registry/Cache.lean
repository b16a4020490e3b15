import SpanRelay.Map.Table
import SpanRelay.Record.Span

/-! # Span caches

A `SpanCache` keeps every span of a fully tracked session, a `SlotCache` only the latest span of
each session. Neither asks whether a session is registered; the registry does. -/

namespace SpanRelay

/-- The spans of one session by their ids. -/
abbrev SessionSpans := Map.Table String Span

/-- The spans of the fully tracked sessions. -/
structure SpanCache where
  sessions : Map.Table String SessionSpans

namespace SpanCache

def empty : SpanCache := ⟨.empty⟩

/-- The spans of a session, if any was ever kept. -/
def view? (c : SpanCache) (sessionId : String) : Option SessionSpans := c.sessions.get? sessionId

/-- A span in the cache of its session. -/
def get? (c : SpanCache) (sessionId spanId : String) : Option Span :=
  (c.view? sessionId).bind fun spans => spans.get? spanId

/-- Whether a span is cached. -/
def contains (c : SpanCache) (sessionId spanId : String) : Bool := (c.get? sessionId spanId).isSome

/-- How many spans are cached for a session. -/
def count (c : SpanCache) (sessionId : String) : Nat := (c.view? sessionId).elim 0 Map.Table.size

/-- How many sessions have a cache. -/
def sessionCount (c : SpanCache) : Nat := c.sessions.size

/-- The cache with a span put in, or put in place of the one of the same id. -/
def insert (c : SpanCache) (sessionId : String) (span : Span) : SpanCache :=
  ⟨c.sessions.insert sessionId (((c.view? sessionId).getD .empty).insert span.id span)⟩

/-- The cache with one of the spans changed, if it is there. -/
def modify (c : SpanCache) (sessionId spanId : String) (f : Span → Span) : SpanCache :=
  ⟨c.sessions.modify sessionId fun spans => spans.modify spanId f⟩

/-- The cache with every span of a session changed. -/
def modifyAll (c : SpanCache) (sessionId : String) (f : Span → Span) : SpanCache :=
  ⟨c.sessions.modify sessionId fun spans => ⟨spans.rows.map fun row => (row.1, f row.2)⟩⟩

/-- The cache without the spans of a session. -/
def remove (c : SpanCache) (sessionId : String) : SpanCache := ⟨c.sessions.erase sessionId⟩

end SpanCache

/-- The latest span of each session. -/
structure SlotCache where
  slots : Map.Table String Span

namespace SlotCache

def empty : SlotCache := ⟨.empty⟩

/-- The span a session's slot holds. -/
def held? (c : SlotCache) (sessionId : String) : Option Span := c.slots.get? sessionId

/-- The span a session's slot holds, if it has the given id. -/
def heldAs? (c : SlotCache) (sessionId spanId : String) : Option Span :=
  (c.held? sessionId).filter fun span => span.id = spanId

def size (c : SlotCache) : Nat := c.slots.size

/-- The slots with a span held for its session. The span that was held before is lost. -/
def put (c : SlotCache) (sessionId : String) (span : Span) : SlotCache :=
  ⟨c.slots.insert sessionId span⟩

/-- The cache with the held span changed, if it has the given id. -/
def modify (c : SlotCache) (sessionId spanId : String) (f : Span → Span) : SlotCache :=
  ⟨c.slots.modify sessionId fun span => if span.id = spanId then f span else span⟩

/-- The slots with nothing held for a session. -/
def clear (c : SlotCache) (sessionId : String) : SlotCache := ⟨c.slots.erase sessionId⟩

/-- The cache with a session's slot empty, if it held the given id. -/
def clearIf (c : SlotCache) (sessionId spanId : String) : SlotCache :=
  if (c.heldAs? sessionId spanId).isSome then c.clear sessionId else c

end SlotCache

end SpanRelay

import SpanRelay.Map.Table
import SpanRelay.Queue
import SpanRelay.Store.Document

/-! # Batches

What the writer makes of the elements it takes out of the queue. `latest` keeps the last version of
each span. `batches` forms the requests: a document goes alone if it is large or if too few came
together, and the others are gathered until the request holds enough documents or bytes. -/

namespace SpanRelay

/-- The spans of the elements, each id at its first place with its last content. -/
def latest (elements : List QueueElement) : List Span :=
  (elements.foldl (fun t e => t.insert e.id e.span) (Map.Table.empty : Map.Table String Span)).values

/-- What bounds the requests that are formed. -/
structure BatchLimits where
  /-- Fewer spans than this are sent one by one. -/
  minBulkLength : Nat
  /-- A document with more bytes goes alone. -/
  singleThreshold : Nat
  /-- A request holds no more bytes, unless it holds one document. -/
  maxBytes : Nat
  /-- A request with this many documents is full. -/
  maxCount : Nat
deriving DecidableEq, Repr

/-- The bytes of some documents together. -/
def totalLength : List Document → Nat
  | [] => 0
  | d :: ds => d.length + totalLength ds

/-- The requests formed so far, and the documents gathered for the next one. -/
structure Gathering where
  formed : List (List Document)
  pending : List Document
deriving DecidableEq, Repr

namespace Gathering

def empty : Gathering := ⟨[], []⟩

/-- The gathering with the pending documents formed into a request. -/
def flush (g : Gathering) : Gathering :=
  if g.pending.isEmpty then g else ⟨g.formed ++ [g.pending], []⟩

/-- The gathering with a document of a flush of `count` spans. -/
def add (l : BatchLimits) (count : Nat) (g : Gathering) (d : Document) : Gathering :=
  if count < l.minBulkLength ∨ l.singleThreshold < d.length then
    { g with formed := g.formed ++ [[d]] }
  else
    let g := if l.maxBytes < totalLength g.pending + d.length then g.flush else g
    let g := { g with pending := g.pending ++ [d] }
    if l.maxCount ≤ g.pending.length ∨ l.maxBytes ≤ totalLength g.pending then g.flush else g

end Gathering

/-- The requests for some spans, in the order in which they are sent. A span that could not be written
would be skipped and counted as such, and the delay reset; as each span has a document
(`Document.ofSpan`), this does not occur. -/
def batches (l : BatchLimits) (spans : List Span) : List (List Document) :=
  ((spans.map Document.ofSpan).foldl (Gathering.add l spans.length) .empty).flush.formed

end SpanRelay

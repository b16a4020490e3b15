import SpanRelay.Json.Reader
import SpanRelay.Map.Table
import SpanRelay.Store.Sink

/-! # The store in memory

A `MemoryStore` keeps documents as values by index and id, a later one overwriting an earlier. It
can be told to fail requests, to reject documents and to take its time. -/

namespace SpanRelay

/-- Documents in memory, and what is to go wrong. -/
structure MemoryStore where
  documents : Map.Table (String × String) Json
  /-- How many documents each request had, in the order of arrival. -/
  requests : List Nat
  /-- How many requests are still to fail as a whole. -/
  failingRequests : Nat
  /-- The documents to reject, with the status of their items. -/
  failingDocuments : Map.Table String UInt16
  /-- The nanoseconds a request takes. -/
  latency : Option Nat

namespace MemoryStore

/-- The store without documents, in which nothing goes wrong. -/
def empty : MemoryStore := ⟨.empty, [], 0, .empty, none⟩

/-- The store that fails the next `count` requests. -/
def failNext (m : MemoryStore) (count : Nat) : MemoryStore := { m with failingRequests := count }

/-- The store that rejects a document. -/
def failDocument (m : MemoryStore) (id : String) (status : UInt16) : MemoryStore :=
  { m with failingDocuments := m.failingDocuments.insert id status }

def clearFailures (m : MemoryStore) : MemoryStore := { m with failingDocuments := .empty }

/-- The document with an id in an index. -/
def document? (m : MemoryStore) (index id : String) : Option Json := m.documents.get? (index, id)

/-- The documents of an index with their ids, in the order in which the ids came first. -/
def entries (m : MemoryStore) (index : String) : List (String × Json) :=
  (m.documents.rows.filter fun row => row.1.1 = index).map fun row => (row.1.2, row.2)

def count (m : MemoryStore) (index : String) : Nat := (m.entries index).length

/-- The reason to reject a document that is no text of a value. -/
def unparsable : String := "<parse error>"

/-- The store after one document of a request, and its item: rejected if it is to be, or if its
body is no value; else indexed. -/
def indexOne (index : String) (m : MemoryStore) (d : Document) : MemoryStore × BulkItem :=
  match m.failingDocuments.get? d.id with
  | some status => (m, .failed d.id status "injected document failure")
  | none =>
    match Json.parse? d.body with
    | some v => ({ m with documents := m.documents.insert (index, d.id) v.canonical }, .ok d.id)
    | none => (m, .failed d.id 400 unparsable)

/-- The store after the documents of a request, and their items. -/
def indexAll (index : String) : MemoryStore → List Document → MemoryStore × List BulkItem
  | m, [] => (m, [])
  | m, d :: ds =>
    let (m, item) := indexOne index m d
    let (m, items) := indexAll index m ds
    (m, item :: items)

/-- The store after a request, and its answer. -/
def bulkIndex (m : MemoryStore) (index : String) (ds : List Document) : MemoryStore × Answer :=
  let m := { m with requests := m.requests ++ [ds.length] }
  if 0 < m.failingRequests then
    ({ m with failingRequests := m.failingRequests - 1 }, .error (.server "injected failure"))
  else
    let (m, items) := indexAll index m ds
    (m, .ok ⟨items⟩)

/-- The store as its writer meets it. -/
def sink : Sink MemoryStore where
  name := "memory"
  receive _ _ _ m := (m, m.latency.getD 0)
  answer index ds m :=
    let (m, answer) := m.bulkIndex index ds
    (m, [], answer)

end MemoryStore

end SpanRelay

import SpanRelay.Error
import SpanRelay.Json.Printer
import SpanRelay.Record.Span

/-! # Documents

A `Document` is a written span, ready for a store. A store answers a bulk request with one
`BulkItem` for each document, gathered in a `BulkResponse`. -/

namespace SpanRelay

/-- A written span with its id. -/
structure Document where
  id : String
  body : String
deriving DecidableEq, Repr

namespace Document

/-- The document of a span. Writing a record cannot fail: the names in it are texts, and a number that is
not finite is written as `null`. So each span has a document. -/
def ofSpan (span : Span) : Document := ⟨span.id, span.toJson.compact⟩

/-- The length in bytes. -/
def length (d : Document) : Nat := d.body.utf8ByteSize

def isEmpty (d : Document) : Bool := d.length = 0

end Document

/-- What a store did with one document. -/
structure BulkItem where
  id : String
  status : UInt16
  error : Option String
deriving DecidableEq, Repr

namespace BulkItem

/-- The item of a document that was indexed. -/
def ok (id : String) : BulkItem := ⟨id, 200, none⟩

/-- The item of a document that was not indexed. -/
def failed (id : String) (status : UInt16) (reason : String) : BulkItem := ⟨id, status, some reason⟩

def isSuccess (i : BulkItem) : Bool := i.error.isNone

/-- Whether the document may be indexed if it is sent again: it failed because the store was busy
or in trouble itself. -/
def isRetryable (i : BulkItem) : Bool := !i.isSuccess && (i.status = 429 || 500 ≤ i.status)

def fieldNames : List String := ["id", "status", "error"]

/-- The record as a value; an absent error is left out. -/
def toJson (i : BulkItem) : Json :=
  .object (
    Json.field "id" (.text i.id) ++
    Json.field "status" (.int i.status.toNat) ++
    Json.optionalField "error" .text i.error)

/-- The record read back. The error may be left out or be `null`. -/
def ofJson? (v : Json) : Option BulkItem := do
  let f ← Json.Fields.of? fieldNames v
  return {
    id := ← f.required "id" Json.text?
    status := ← f.required "status" Json.word16?
    error := ← f.optional "error" Json.text? }

end BulkItem

/-- What a store did with the documents of a request. -/
structure BulkResponse where
  items : List BulkItem
deriving DecidableEq, Repr

namespace BulkResponse

/-- All documents were indexed. -/
def allOk (ids : List String) : BulkResponse := ⟨ids.map .ok⟩

/-- The items of the documents that were not indexed. -/
def failures (r : BulkResponse) : List BulkItem := r.items.filter fun i => !i.isSuccess

def hasFailures (r : BulkResponse) : Bool := !r.failures.isEmpty

def fieldNames : List String := ["items"]

def toJson (r : BulkResponse) : Json :=
  .object (Json.field "items" (.list (r.items.map BulkItem.toJson)))

def items? : Json → Option (List BulkItem)
  | .list vs => vs.mapM BulkItem.ofJson?
  | _ => none

def ofJson? (v : Json) : Option BulkResponse := do
  let f ← Json.Fields.of? fieldNames v
  return { items := ← f.required "items" items? }

end BulkResponse

end SpanRelay

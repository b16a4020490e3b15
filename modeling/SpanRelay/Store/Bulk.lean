import SpanRelay.Event
import SpanRelay.Http.Message
import SpanRelay.Json.Reader
import SpanRelay.Map.Table
import SpanRelay.Store.Sink

/-! # The bulk format

A bulk request has two lines for each document: an action that names index and id, and the body.
The answer has one entry for each document, in order. `align` makes a `BulkResponse` of it with
exactly one item for each document of the request, and `answerOf` says what a reply means as a
whole. -/

namespace SpanRelay.Bulk

/-! ### Requests -/

/-- The line before a document, which tells its index and its id. -/
def action (index : String) (d : Document) : Json :=
  .object [("index", .object [("_id", .text d.id), ("_index", .text index)])]

/-- The two lines of a document. -/
def lines (index : String) (d : Document) : List Char :=
  (action index d).print ++ '\n' :: (d.body.toList ++ ['\n'])

/-- The body of a request: the lines of its documents, one after the other. -/
def body (index : String) (ds : List Document) : String := String.ofList (ds.flatMap (lines index))

/-! ### Answers -/

/-- What an answer says about one document. -/
structure Verdict where
  /-- The id, if the answer repeats it. -/
  id : Option String
  status : UInt16
  /-- What went wrong, as a value. -/
  error : Option Json

/-- An answer as it was read. -/
structure Reply where
  errors : Bool
  /-- For each document its verdicts by the names of their actions. -/
  entries : List (Map.Table String Verdict)

/-- The verdict that a value holds. An error may be any value that can be read. -/
def Verdict.ofJson? (v : Json) : Option Verdict := do
  let f ← Json.Fields.of? ["_id", "status", "error"] v
  let whole (v : Json) : Option Json := if v.readable then some v.canonical else none
  return {
    id := ← f.orAbsent "_id" Json.text?
    status := ← f.required "status" Json.word16?
    error := ← f.orAbsent "error" whole }

/-- The entry a value holds: an object of verdicts, the last of a repeated name kept. -/
def entry? : Json → Option (Map.Table String Verdict)
  | .object members => do
    let verdicts ← members.mapM fun m => (Verdict.ofJson? m.2).map fun verdict => (m.1, verdict)
    return verdicts.foldl (fun t e => t.insert e.1 e.2) .empty
  | _ => none

/-- The entries a value holds. -/
def entries? : Json → Option (List (Map.Table String Verdict))
  | .list vs => vs.mapM entry?
  | _ => none

/-- The answer a value holds; both fields may be left out. -/
def Reply.ofJson? (v : Json) : Option Reply := do
  let f ← Json.Fields.of? ["errors", "items"] v
  return {
    errors := ← f.defaulted "errors" Json.bool? false
    entries := ← f.defaulted "items" entries? [] }

/-- The reason an error gives: its type and reason where it has them, else its text. -/
def reasonOf (error : Json) : String :=
  match (error.member? "reason").bind Json.text? with
  | some reason =>
    match (error.member? "type").bind Json.text? with
    | some kind => s!"{kind}: {reason}"
    | none => reason
  | none => error.compact

/-- The item of a document about which the answer says nothing; the document may be sent again. -/
def missingItem (d : Document) : BulkItem := .failed d.id 500 "missing bulk item"

/-- The item of a verdict. A status from 300 on is a failure even without an error. -/
def Verdict.item (d : Document) (v : Verdict) : BulkItem :=
  let id := v.id.getD d.id
  match v.error with
  | some error => .failed id v.status (reasonOf error)
  | none =>
    if 300 ≤ v.status then .failed id v.status "unexpected item status" else ⟨id, v.status, none⟩

/-- The verdict of an entry: the one on indexing, or else the first. -/
def verdict? (entry : Map.Table String Verdict) : Option Verdict :=
  (entry.get? "index").or entry.values.head?

/-- The item of a document, with the entry of its place. -/
def itemOf (d : Document) (entry : Map.Table String Verdict) : BulkItem :=
  (verdict? entry).elim (missingItem d) (Verdict.item d)

/-- The items of the documents: those with an entry by their places, the others missing. -/
def align (r : Reply) (ds : List Document) : BulkResponse :=
  ⟨List.zipWith itemOf ds r.entries ++ (ds.drop r.entries.length).map missingItem⟩

/-- The event of an answer with fewer entries than documents. -/
def shortfall (r : Reply) (ds : List Document) : List Event :=
  if r.entries.length < ds.length then
    [.shortResponse ds.length r.entries.length r.errors]
  else []

/-- The error of a reply without success. -/
def refusal (status : Nat) (body : String) : RelayError :=
  let text := Http.statusText status
  if status = 400 ∨ status = 413 then .rejected s!"{text}: {body}"
  else if status = 401 ∨ status = 403 then .authentication text
  else if 500 ≤ status ∧ status < 600 ∨ status = 429 then .server text
  else .transport s!"Unexpected status: {text}"

/-- What an exchange means for the documents of the request, and the events noted over it. -/
def answerOf (ds : List Document) : Http.Exchange → List Event × Answer
  | .timedOut reason => ([], .error (.timeout reason))
  | .failed reason => ([], .error (.transport reason))
  | .reply status body =>
    if Http.isSuccess status then
      match (Json.read? body.toList).bind Reply.ofJson? with
      | some r => (shortfall r ds, .ok (align r ds))
      | none => ([], .error (.transport "Failed to parse response: not a bulk answer"))
    else ([], .error (refusal status body))

end SpanRelay.Bulk

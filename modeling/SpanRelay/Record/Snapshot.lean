import SpanRelay.Record.Status

/-! # Snapshots of a message

A `Snapshot` is what was captured of a message on one side of an element execution, in four
independent sections. `filtered` keeps the sections that a level retains. -/

namespace SpanRelay

/-- What was captured of a message. A section that is absent was not captured. -/
structure Snapshot where
  body : Option String
  headers : Option (Map.Sorted String)
  properties : Option (Map.Sorted Json)
  context : Option (Map.Sorted String)

namespace Snapshot

def empty : Snapshot := ⟨none, none, none, none⟩

/-- The snapshot with another body. -/
def withBody (s : Snapshot) (body : String) : Snapshot := { s with body := some body }

/-- The snapshot with one more header. -/
def withHeader (s : Snapshot) (name value : String) : Snapshot :=
  { s with headers := some ((s.headers.getD .empty).insert name value) }

/-- The snapshot with one more property. -/
def withProperty (s : Snapshot) (name : String) (value : Json) : Snapshot :=
  { s with properties := some ((s.properties.getD .empty).insert name value) }

/-- The snapshot with one more entry of the context. -/
def withContext (s : Snapshot) (name value : String) : Snapshot :=
  { s with context := some ((s.context.getD .empty).insert name value) }

/-- The bytes of the captured body in UTF-8, zero if there is none. -/
def bodyLength (s : Snapshot) : Nat := s.body.elim 0 String.utf8ByteSize

/-- The sections that a level retains: none when tracing is off, headers and properties at `info`,
and all at the other levels; the body only where it may be captured. -/
def filtered (s : Snapshot) (level : Level) (captureBody : Bool) : Option Snapshot :=
  let keepBody (t : Snapshot) : Snapshot := if captureBody then t else { t with body := none }
  match level with
  | .off => none
  | .info => some (keepBody { s with body := none, context := none })
  | .error | .debug => some (keepBody s)

def fieldNames : List String := ["body", "headers", "properties", "context"]

/-- The record as a value; absent sections are left out. -/
def toJson (s : Snapshot) : Json :=
  .object (
    Json.optionalField "body" .text s.body ++
    Json.optionalField "headers" Json.ofTextMap s.headers ++
    Json.optionalField "properties" Json.ofValueMap s.properties ++
    Json.optionalField "context" Json.ofTextMap s.context)

/-- The record read back. Any section may be left out. -/
def ofJson? (v : Json) : Option Snapshot := do
  let f ← Json.Fields.of? fieldNames v
  return {
    body := ← f.optional "body" Json.text?
    headers := ← f.optional "headers" Json.textMap?
    properties := ← f.optional "properties" Json.valueMap?
    context := ← f.optional "context" Json.textMap? }

end Snapshot

end SpanRelay

import SpanRelay.Json.Record
import SpanRelay.Report.Printer

/-! # The report of a store's health

`Health` is what a look at the store has shown. -/

namespace SpanRelay

/-- What a look at the store has shown. -/
structure Health where
  store : String
  endpoint : String
  healthy : Bool
  /-- Why the store could not be asked. -/
  error : Option String
deriving DecidableEq, Repr

namespace Health

def fieldNames : List String := ["store", "endpoint", "healthy", "error"]

/-- The record read back. The reason may be left out. -/
def ofJson? (v : Json) : Option Health := do
  let f ← Json.Fields.of? fieldNames v
  return {
    store := ← f.required "store" Json.text?
    endpoint := ← f.required "endpoint" Json.text?
    healthy := ← f.required "healthy" Json.bool?
    error := ← f.optional "error" Json.text? }

/-- The fields of the report. There is a reason only where the store could not be asked. -/
def report (h : Health) : Report where
  fields :=
    [("store", .text h.store), ("endpoint", .text h.endpoint), ("healthy", .flag h.healthy)]
      ++ Report.optional "error" .text h.error
  sections := []

/-- The word for the health, painted. -/
def verdict (h : Health) : Painted :=
  if h.healthy then ⟨"HEALTHY".toList, some .boldGreen⟩
  else ⟨"UNAVAILABLE".toList, some .boldRed⟩

/-- The lines for a reader: the verdict, and below it the reason if there is one. -/
def table (h : Health) : Table :=
  [.status h.verdict h.endpoint, .text "store" h.store]
    ++ (h.error.map fun e => Line.row "error" ⟨e.toList, some .red⟩).toList

/-- What the health of a store looks like in each form. -/
def printout (h : Health) : Printout := ⟨h.report, h.table⟩

end Health

end SpanRelay

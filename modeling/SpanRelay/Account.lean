import SpanRelay.Event
import SpanRelay.Json.Record

/-! # The account of the pipeline

What became of the spans, as counters in a `Tally` and as events in the order they happened.
`Stats` is the record of a moment that the pipeline reports. -/

namespace SpanRelay

/-- How many spans took which way. -/
structure Tally where
  /-- Accepted by the queue. -/
  scheduled : Nat
  /-- Refused by the queue. -/
  dropped : Nat
  /-- Acknowledged by the store. -/
  flushed : Nat
  /-- Given up after failures of the store. -/
  lost : Nat
  /-- Left out because they could not be written. -/
  skipped : Nat
deriving DecidableEq, Repr

/-- The counters before anything was counted. -/
def Tally.zero : Tally := ⟨0, 0, 0, 0, 0⟩

/-- The counters together with the events that were noted. -/
structure Account where
  tally : Tally
  events : List Event
deriving DecidableEq, Repr

namespace Account

def empty : Account := ⟨.zero, []⟩

/-- The account with one more event, after all others. -/
def note (a : Account) (e : Event) : Account := { a with events := a.events ++ [e] }

/-- The account with `n` more spans that were accepted by the queue. -/
def addScheduled (a : Account) (n : Nat) : Account :=
  { a with tally := { a.tally with scheduled := a.tally.scheduled + n } }

/-- The account with `n` more spans that were refused by the queue. -/
def addDropped (a : Account) (n : Nat) : Account :=
  { a with tally := { a.tally with dropped := a.tally.dropped + n } }

/-- The account with `n` more documents that were indexed. -/
def addFlushed (a : Account) (n : Nat) : Account :=
  { a with tally := { a.tally with flushed := a.tally.flushed + n } }

/-- The account with `n` more documents that were given up. -/
def addLost (a : Account) (n : Nat) : Account :=
  { a with tally := { a.tally with lost := a.tally.lost + n } }

end Account

/-- The report of a moment. -/
structure Stats where
  tally : Tally
  queuedBytes : Nat
  activeSessions : Nat
deriving DecidableEq, Repr

namespace Stats

def fieldNames : List String :=
  ["scheduled", "dropped", "flushed", "lost", "skipped", "queued_bytes", "active_sessions"]

/-- The counters in the order of `fieldNames`. -/
def numbers (s : Stats) : List Nat :=
  [s.tally.scheduled, s.tally.dropped, s.tally.flushed, s.tally.lost, s.tally.skipped,
    s.queuedBytes, s.activeSessions]

def toJson (s : Stats) : Json :=
  .object (fieldNames.zip (s.numbers.map fun n : Nat => .int n))

/-- The record read back. Each counter is a number of 64 bits. -/
def ofJson? (v : Json) : Option Stats := do
  let f ← Json.Fields.of? fieldNames v
  let count := fun name => f.required name (Json.nat? (Word.range 64))
  return {
    tally := {
      scheduled := ← count "scheduled"
      dropped := ← count "dropped"
      flushed := ← count "flushed"
      lost := ← count "lost"
      skipped := ← count "skipped" }
    queuedBytes := ← count "queued_bytes"
    activeSessions := ← count "active_sessions" }

end Stats

end SpanRelay

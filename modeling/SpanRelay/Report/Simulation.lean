import SpanRelay.Account
import SpanRelay.Report.Printer
import SpanRelay.Simulation.Run

/-! # The report of a simulation

`Simulation` is what a simulation has come to. -/

namespace SpanRelay

/-- What a simulation has come to. -/
structure Simulation where
  sessions : Nat
  stepsPerSession : Nat
  level : Level
  sampledSessions : Nat
  elapsedMs : Nat
  /-- How many documents a store in memory holds at the end. -/
  storedDocuments : Option Nat
  stats : Stats
deriving DecidableEq, Repr

namespace Simulation

/-- What a plan has come to. -/
def of {σ : Type} (p : Plan) (s : Simulated σ) (storedDocuments : Option Nat) : Simulation where
  sessions := p.sessions
  stepsPerSession := p.steps
  level := p.level
  sampledSessions := s.sampled
  elapsedMs := s.pipeline.desk.now / 1000000
  storedDocuments := storedDocuments
  stats := s.pipeline.stats

def fieldNames : List String :=
  ["sessions", "steps_per_session", "level", "sampled_sessions", "elapsed_ms", "stored_documents",
    "stats"]

/-- The record read back. There may be no count of documents. -/
def ofJson? (v : Json) : Option Simulation := do
  let f ← Json.Fields.of? fieldNames v
  let count := fun name => f.required name (Json.nat? (Word.range 64))
  return {
    sessions := ← count "sessions"
    stepsPerSession := ← count "steps_per_session"
    level := ← f.required "level" Level.ofJson?
    sampledSessions := ← count "sampled_sessions"
    elapsedMs := ← count "elapsed_ms"
    storedDocuments := ← f.optional "stored_documents" (Json.nat? (Word.range 64))
    stats := ← f.required "stats" Stats.ofJson? }

/-- The fields of the report, the counters in a section. -/
def report (s : Simulation) : Report where
  fields :=
    [("sessions", .count s.sessions), ("steps_per_session", .count s.stepsPerSession),
      ("level", .word s.level.word), ("sampled_sessions", .count s.sampledSessions),
      ("elapsed_ms", .count s.elapsedMs)]
      ++ Report.optional "stored_documents" .count s.storedDocuments
  sections := [("stats", (Stats.fieldNames.zip s.stats.numbers).map fun f => (f.1, .count f.2))]

/-- The rows of the statistics; what was dropped or lost is painted. -/
def statsRows (s : Stats) : Table :=
  [.count "scheduled" s.tally.scheduled, .count "flushed" s.tally.flushed,
    .row "dropped" (.alarm .yellow s.tally.dropped), .row "lost" (.alarm .red s.tally.lost),
    .count "skipped" s.tally.skipped, .count "queued_bytes" s.queuedBytes,
    .count "active_sessions" s.activeSessions]

/-- The lines for a reader, the counters under a heading of their own. -/
def table (s : Simulation) : Table :=
  [.heading "Simulation", .count "sessions" s.sessions,
    .count "steps_per_session" s.stepsPerSession, .text "level" s.level.word,
    .count "sampled_sessions" s.sampledSessions, .count "elapsed_ms" s.elapsedMs]
    ++ (s.storedDocuments.map (Line.count "stored_documents")).toList
    ++ .heading "Pipeline" :: statsRows s.stats

/-- What a simulation looks like in each form. -/
def printout (s : Simulation) : Printout := ⟨s.report, s.table⟩

end Simulation

end SpanRelay

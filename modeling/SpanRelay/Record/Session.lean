import SpanRelay.Record.Status
import SpanRelay.Timestamp.Printer
import SpanRelay.Timestamp.Reader

/-! # Sessions

A `Session` is one processing run of a chain, described by its caller in a `SessionStart`. A `Stamp`
holds the fields of the session that every span carries. -/

namespace SpanRelay

/-- A point in time is written as its text. -/
def Timestamp.toJson (t : Timestamp) : Json := .text (String.ofList t.print)

/-- A point in time, read from its text. -/
def Timestamp.ofJson? (v : Json) : Option Timestamp := v.text?.bind fun s => read? s.toList

/-- What the caller tells about a run that starts. -/
structure SessionStart where
  sessionId : String
  chainId : String
  chainName : String
  externalId : Option String
  domain : Option String
  engineAddress : Option String
  snapshotName : Option String
  /-- The run this one is nested in or repeats. -/
  parentSessionId : Option String
  startedAt : Timestamp
deriving DecidableEq, Repr

namespace SessionStart

def fieldNames : List String :=
  ["session_id", "chain_id", "chain_name", "external_id", "domain", "engine_address",
    "snapshot_name", "parent_session_id", "started_at"]

/-- The record as a value; absent fields are written as `null`. -/
def toJson (s : SessionStart) : Json :=
  .object (
    Json.field "session_id" (.text s.sessionId) ++
    Json.field "chain_id" (.text s.chainId) ++
    Json.field "chain_name" (.text s.chainName) ++
    Json.field "external_id" (Json.orNull .text s.externalId) ++
    Json.field "domain" (Json.orNull .text s.domain) ++
    Json.field "engine_address" (Json.orNull .text s.engineAddress) ++
    Json.field "snapshot_name" (Json.orNull .text s.snapshotName) ++
    Json.field "parent_session_id" (Json.orNull .text s.parentSessionId) ++
    Json.field "started_at" s.startedAt.toJson)

/-- The record read back. What is optional may be left out or be `null`. -/
def ofJson? (v : Json) : Option SessionStart := do
  let f ← Json.Fields.of? fieldNames v
  return {
    sessionId := ← f.required "session_id" Json.text?
    chainId := ← f.required "chain_id" Json.text?
    chainName := ← f.required "chain_name" Json.text?
    externalId := ← f.orAbsent "external_id" Json.text?
    domain := ← f.orAbsent "domain" Json.text?
    engineAddress := ← f.orAbsent "engine_address" Json.text?
    snapshotName := ← f.orAbsent "snapshot_name" Json.text?
    parentSessionId := ← f.orAbsent "parent_session_id" Json.text?
    startedAt := ← f.required "started_at" Timestamp.ofJson? }

end SessionStart

/-- The fields of a session that each of its spans carries. -/
structure Stamp where
  externalSessionId : Option String
  chainId : String
  chainName : String
  domain : Option String
  engineAddress : Option String
  snapshotName : Option String
  sessionStarted : Timestamp
  sessionFinished : Option Timestamp
  sessionDurationMs : Option UInt64
  sessionStatus : Status
  sessionLevel : Level
  parentSessionId : Option String
  correlationId : Option String
deriving DecidableEq, Repr

namespace Stamp

def fieldNames : List String :=
  ["external_session_id", "chain_id", "chain_name", "domain", "engine_address", "snapshot_name",
    "session_started", "session_finished", "session_duration_ms", "session_status",
    "session_logging_level", "parent_session_id", "correlation_id"]

/-- The members of the written record; absent fields are left out. -/
def members (s : Stamp) : List (String × Json) :=
  Json.optionalField "external_session_id" .text s.externalSessionId ++
  Json.field "chain_id" (.text s.chainId) ++
  Json.field "chain_name" (.text s.chainName) ++
  Json.optionalField "domain" .text s.domain ++
  Json.optionalField "engine_address" .text s.engineAddress ++
  Json.optionalField "snapshot_name" .text s.snapshotName ++
  Json.field "session_started" s.sessionStarted.toJson ++
  Json.optionalField "session_finished" Timestamp.toJson s.sessionFinished ++
  Json.optionalField "session_duration_ms" Json.ofWord64 s.sessionDurationMs ++
  Json.field "session_status" s.sessionStatus.toJson ++
  Json.field "session_logging_level" s.sessionLevel.toJson ++
  Json.optionalField "parent_session_id" .text s.parentSessionId ++
  Json.optionalField "correlation_id" .text s.correlationId

/-- The stamp alone as a value. -/
def toJson (s : Stamp) : Json := .object s.members

/-- The stamp among some fields, which may be more than its own. -/
def ofFields? (f : Json.Fields) : Option Stamp := do
  return {
    externalSessionId := ← f.optional "external_session_id" Json.text?
    chainId := ← f.required "chain_id" Json.text?
    chainName := ← f.required "chain_name" Json.text?
    domain := ← f.optional "domain" Json.text?
    engineAddress := ← f.optional "engine_address" Json.text?
    snapshotName := ← f.optional "snapshot_name" Json.text?
    sessionStarted := ← f.required "session_started" Timestamp.ofJson?
    sessionFinished := ← f.optional "session_finished" Timestamp.ofJson?
    sessionDurationMs := ← f.optional "session_duration_ms" Json.word64?
    sessionStatus := ← f.required "session_status" Status.ofJson?
    sessionLevel := ← f.required "session_logging_level" Level.ofJson?
    parentSessionId := ← f.optional "parent_session_id" Json.text?
    correlationId := ← f.optional "correlation_id" Json.text? }

/-- The stamp read back where it stands alone. -/
def ofJson? (v : Json) : Option Stamp := (Json.Fields.of? fieldNames v).bind ofFields?

end Stamp

/-- A processing run of a chain, going on or finished. -/
structure Session where
  id : String
  externalId : Option String
  domain : Option String
  engineAddress : Option String
  chainId : String
  chainName : String
  snapshotName : Option String
  started : Timestamp
  finished : Option Timestamp
  durationMs : Option UInt64
  status : Status
  level : Level
  parentSessionId : Option String
  correlationId : Option String
  /-- The sampling decision, taken once at the start. -/
  sampled : Bool
deriving DecidableEq, Repr

namespace Session

/-- A session as it begins, with the level and the decision taken for it. -/
def start (s : SessionStart) (level : Level) (sampled : Bool) : Session where
  id := s.sessionId
  externalId := s.externalId
  domain := s.domain
  engineAddress := s.engineAddress
  chainId := s.chainId
  chainName := s.chainName
  snapshotName := s.snapshotName
  started := s.startedAt
  finished := none
  durationMs := none
  status := .inProgress
  level := level
  parentSessionId := s.parentSessionId
  correlationId := none
  sampled := sampled

/-- The run with its final outcome. -/
def finish (s : Session) (status : Status) (finished : Timestamp) (durationMs : UInt64) :
    Session :=
  { s with status := status, finished := some finished, durationMs := some durationMs }

/-- The fields that every span of the run carries. -/
def stamp (s : Session) : Stamp where
  externalSessionId := s.externalId
  chainId := s.chainId
  chainName := s.chainName
  domain := s.domain
  engineAddress := s.engineAddress
  snapshotName := s.snapshotName
  sessionStarted := s.started
  sessionFinished := s.finished
  sessionDurationMs := s.durationMs
  sessionStatus := s.status
  sessionLevel := s.level
  parentSessionId := s.parentSessionId
  correlationId := s.correlationId

def fieldNames : List String :=
  ["id", "external_id", "domain", "engine_address", "chain_id", "chain_name", "snapshot_name",
    "started", "finished", "duration_ms", "execution_status", "logging_level",
    "parent_session_id", "correlation_id", "sampled"]

/-- The record as a value; absent fields are left out. -/
def toJson (s : Session) : Json :=
  .object (
    Json.field "id" (.text s.id) ++
    Json.optionalField "external_id" .text s.externalId ++
    Json.optionalField "domain" .text s.domain ++
    Json.optionalField "engine_address" .text s.engineAddress ++
    Json.field "chain_id" (.text s.chainId) ++
    Json.field "chain_name" (.text s.chainName) ++
    Json.optionalField "snapshot_name" .text s.snapshotName ++
    Json.field "started" s.started.toJson ++
    Json.optionalField "finished" Timestamp.toJson s.finished ++
    Json.optionalField "duration_ms" Json.ofWord64 s.durationMs ++
    Json.field "execution_status" s.status.toJson ++
    Json.field "logging_level" s.level.toJson ++
    Json.optionalField "parent_session_id" .text s.parentSessionId ++
    Json.optionalField "correlation_id" .text s.correlationId ++
    Json.field "sampled" (.bool s.sampled))

/-- The record read back. What is optional may be left out. -/
def ofJson? (v : Json) : Option Session := do
  let f ← Json.Fields.of? fieldNames v
  return {
    id := ← f.required "id" Json.text?
    externalId := ← f.optional "external_id" Json.text?
    domain := ← f.optional "domain" Json.text?
    engineAddress := ← f.optional "engine_address" Json.text?
    chainId := ← f.required "chain_id" Json.text?
    chainName := ← f.required "chain_name" Json.text?
    snapshotName := ← f.optional "snapshot_name" Json.text?
    started := ← f.required "started" Timestamp.ofJson?
    finished := ← f.optional "finished" Timestamp.ofJson?
    durationMs := ← f.optional "duration_ms" Json.word64?
    status := ← f.required "execution_status" Status.ofJson?
    level := ← f.required "logging_level" Level.ofJson?
    parentSessionId := ← f.optional "parent_session_id" Json.text?
    correlationId := ← f.optional "correlation_id" Json.text?
    sampled := ← f.required "sampled" Json.bool? }

end Session

end SpanRelay

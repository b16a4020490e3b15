import SpanRelay.Config.Basic
import SpanRelay.Word

/-! # Reading a configuration

A `Reading` tells how the values of a format are taken as fields, numbers and texts. With it
`Config.read?` reads the settings from any format; settings that are left out have their default,
and others are passed over. -/

namespace SpanRelay

/-- How the values of a format are taken. -/
structure Reading (V : Type) where
  /-- The value of each of the given fields of a record. -/
  fields? : List String → V → Option (String → Option V)
  /-- The whole number from zero to below a bound. -/
  nat? : Nat → V → Option Nat
  real? : V → Option Float
  text? : V → Option String
  /-- Whether the value stands for an absent one; `none` if it claims to, and is not. -/
  absent? : V → Option Bool

namespace Reading

variable {V α : Type}

/-- A field with the value `default` where it is left out. -/
def field (fields : String → Option V) (name : String) (read : V → Option α) (default : α) :
    Option α :=
  match fields name with
  | none => some default
  | some v => read v

/-- A text, or an absent one. -/
def optionalText? (r : Reading V) (v : V) : Option (Option String) := do
  if ← r.absent? v then return none
  else return some (← r.text? v)

/-- The readings of the exchange format. -/
def json : Reading Json where
  fields? names v := (Json.Fields.of? names v).map Json.Fields.find?
  nat? := Json.nat?
  real? := Json.real?
  text? := Json.text?
  absent? v := match v with
    | .null => some true
    | _ => some false

end Reading

variable {V : Type}

/-- The settings for a store. What is left out has its default. -/
def StoreConfig.read? (r : Reading V) (v : V) : Option StoreConfig := do
  let f ← r.fields? fieldNames v
  return {
    endpoint := ← Reading.field f "endpoint" r.text? default.endpoint
    timeoutMs := ← Reading.field f "timeout_ms" (r.nat? (Word.range 64)) default.timeoutMs
    username := ← Reading.field f "username" r.optionalText? default.username
    password := ← Reading.field f "password" r.optionalText? default.password }

/-- The settings of a pipeline. What is left out has its default; nothing is validated. -/
def Config.read? (r : Reading V) (v : V) : Option Config := do
  let f ← r.fields? fieldNames v
  let word := r.nat? (Word.range 64)
  return {
    queueCapacity := ← Reading.field f "queue_capacity" word default.queueCapacity
    queueMaxBytes := ← Reading.field f "queue_max_bytes" word default.queueMaxBytes
    requestMaxBytes := ← Reading.field f "bulk_request_max_bytes" word default.requestMaxBytes
    singleThresholdBytes :=
      ← Reading.field f "single_payload_threshold_bytes" word default.singleThresholdBytes
    batchThreshold := ← Reading.field f "batch_element_threshold" word default.batchThreshold
    drainLength := ← Reading.field f "drain_batch_size" word default.drainLength
    minBulkLength := ← Reading.field f "min_bulk_batch_len" word default.minBulkLength
    minRetryDelayMs := ← Reading.field f "min_retry_delay_ms" word default.minRetryDelayMs
    maxRetryDelayMs := ← Reading.field f "max_retry_delay_ms" word default.maxRetryDelayMs
    maxWriteRetries :=
      ← Reading.field f "max_write_retries" (r.nat? (Word.range 32)) default.maxWriteRetries
    samplingProbability :=
      ← Reading.field f "sampling_probability" r.real? default.samplingProbability
    indexName := ← Reading.field f "index_name" r.text? default.indexName
    store := ← Reading.field f "store" (StoreConfig.read? r) default.store }

/-- The settings in a value of the exchange format. -/
def Config.ofJson? : Json → Option Config := Config.read? .json

/-- The settings of the store in a value of the exchange format. -/
def StoreConfig.ofJson? : Json → Option StoreConfig := StoreConfig.read? .json

end SpanRelay

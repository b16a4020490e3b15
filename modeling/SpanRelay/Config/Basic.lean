import SpanRelay.Error
import SpanRelay.Decimal.Layout
import SpanRelay.Json.Record
import SpanRelay.Writer.Machine

/-! # Configuration

A `Config` holds the limits of the queue, of the requests and of the retries, the sampling and the
store. `Config.fault?` is the first setting that the pipeline cannot run with, and
`Config.validate` turns it into an error. -/

namespace SpanRelay

/-- Where the store is, how long a request may take, and who asks it. -/
structure StoreConfig where
  endpoint : String
  timeoutMs : Nat
  username : Option String
  password : Option String
deriving DecidableEq, Repr

namespace StoreConfig

/-- A store on the same machine that asks for no user. -/
def default : StoreConfig where
  endpoint := "http://localhost:9200"
  timeoutMs := 10000
  username := none
  password := none

def fieldNames : List String := ["endpoint", "timeout_ms", "username", "password"]

/-- The record as a value; an absent user and password are left out. -/
def toJson (c : StoreConfig) : Json :=
  .object (
    Json.field "endpoint" (.text c.endpoint) ++
    Json.field "timeout_ms" (.int c.timeoutMs) ++
    Json.optionalField "username" .text c.username ++
    Json.optionalField "password" .text c.password)

end StoreConfig

/-- The settings of a pipeline: limits of the queue and of the requests, delays, sampling, and the
store. -/
structure Config where
  queueCapacity : Nat
  /-- The greatest number of estimated bytes in the queue. -/
  queueMaxBytes : Nat
  requestMaxBytes : Nat
  /-- A document with more bytes goes alone. -/
  singleThresholdBytes : Nat
  /-- The greatest number of documents in a request. -/
  batchThreshold : Nat
  drainLength : Nat
  /-- Fewer spans than this are sent one by one. -/
  minBulkLength : Nat
  minRetryDelayMs : Nat
  maxRetryDelayMs : Nat
  maxWriteRetries : Nat
  samplingProbability : Float
  indexName : String
  store : StoreConfig

namespace Config

/-- The settings for one engine that writes to one store. -/
def default : Config where
  queueCapacity := 10000
  queueMaxBytes := 128 * 1024 * 1024
  requestMaxBytes := 10 * 1024 * 1024
  singleThresholdBytes := 2 * 1024 * 1024
  batchThreshold := 500
  drainLength := 1000
  minBulkLength := 2
  minRetryDelayMs := 100
  maxRetryDelayMs := 30000
  maxWriteRetries := 5
  samplingProbability := 1.0
  indexName := "sessions"
  store := .default

def fieldNames : List String :=
  ["queue_capacity", "queue_max_bytes", "bulk_request_max_bytes",
    "single_payload_threshold_bytes", "batch_element_threshold", "drain_batch_size",
    "min_bulk_batch_len", "min_retry_delay_ms", "max_retry_delay_ms", "max_write_retries",
    "sampling_probability", "index_name", "store"]

def toJson (c : Config) : Json :=
  .object (
    Json.field "queue_capacity" (.int c.queueCapacity) ++
    Json.field "queue_max_bytes" (.int c.queueMaxBytes) ++
    Json.field "bulk_request_max_bytes" (.int c.requestMaxBytes) ++
    Json.field "single_payload_threshold_bytes" (.int c.singleThresholdBytes) ++
    Json.field "batch_element_threshold" (.int c.batchThreshold) ++
    Json.field "drain_batch_size" (.int c.drainLength) ++
    Json.field "min_bulk_batch_len" (.int c.minBulkLength) ++
    Json.field "min_retry_delay_ms" (.int c.minRetryDelayMs) ++
    Json.field "max_retry_delay_ms" (.int c.maxRetryDelayMs) ++
    Json.field "max_write_retries" (.int c.maxWriteRetries) ++
    Json.field "sampling_probability" (.real c.samplingProbability) ++
    Json.field "index_name" (.text c.indexName) ++
    Json.field "store" c.store.toJson)

/-! ### Validity -/

/-- A setting that the pipeline cannot run with. -/
inductive Fault
  | queueCapacity
  | queueMaxBytes
  | batchOrDrain
  | sampling (probability : Float)
  | retryDelays
  | requestLimits
  | indexName

/-- What is told of a fault. It names the fields that it is about. -/
def Fault.message : Fault → String
  | queueCapacity => "queue_capacity must be positive"
  | queueMaxBytes => "queue_max_bytes must be positive"
  | batchOrDrain => "batch_element_threshold and drain_batch_size must be positive"
  | sampling probability =>
    let text := String.ofList (Decimal.Layout.plain.write probability)
    s!"sampling_probability must be within [0, 1], got {text}"
  | retryDelays => "min_retry_delay_ms must not exceed max_retry_delay_ms"
  | requestLimits => "bulk_request_max_bytes must be at least single_payload_threshold_bytes"
  | indexName => "index_name must not be empty"

/-- The first fault of the settings, in the order in which they are checked. -/
def fault? (c : Config) : Option Fault :=
  if c.queueCapacity = 0 then some .queueCapacity
  else if c.queueMaxBytes = 0 then some .queueMaxBytes
  else if c.batchThreshold = 0 ∨ c.drainLength = 0 then some .batchOrDrain
  else if !(0.0 ≤ c.samplingProbability && c.samplingProbability ≤ 1.0) then
    some (.sampling c.samplingProbability)
  else if c.maxRetryDelayMs < c.minRetryDelayMs then some .retryDelays
  else if c.requestMaxBytes < c.singleThresholdBytes then some .requestLimits
  else if c.indexName.isEmpty then some .indexName
  else none

/-- The settings, if the pipeline can run with them. -/
def validate (c : Config) : Except RelayError Config :=
  match c.fault? with
  | some fault => .error (.config fault.message)
  | none => .ok c

/-! ### What the parts of the pipeline take from the settings -/

/-- The empty queue of the configured limits. -/
def queue (c : Config) : WriteQueue := .of c.queueCapacity c.queueMaxBytes

/-- The limits of the requests that the settings ask for. -/
def batchLimits (c : Config) : BatchLimits where
  minBulkLength := c.minBulkLength
  singleThreshold := c.singleThresholdBytes
  maxBytes := c.requestMaxBytes
  maxCount := c.batchThreshold

/-- The writer that the settings ask for, ready and with no delay. -/
def writer (c : Config) : Writer :=
  .of ⟨c.indexName, c.drainLength, c.batchLimits, c.maxWriteRetries⟩
    (.ofMillis c.minRetryDelayMs c.maxRetryDelayMs)

end Config

end SpanRelay

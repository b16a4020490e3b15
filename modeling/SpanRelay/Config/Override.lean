import SpanRelay.Config.Basic
import SpanRelay.Decimal.Reader
import SpanRelay.Text.Blank

/-! # Overriding a configuration

`Config.overriddenBy` lays a source of variables over the settings. A variable with a usable value
replaces its one setting; any other value leaves the setting as it is. `Config.Call` are the
changes that a program makes to the default settings, one by one. -/

namespace SpanRelay

/-- A source of variables: the value of each name, where there is one. -/
abbrev Variables := String → Option String

namespace Variables

/-- The source that answers from one table. -/
def ofTable (t : Map.Table String String) : Variables := t.get?

variable {α : Type}

/-- How the names of all variables for settings begin. -/
def namePrefix : String := "SESSIONTRACE_"

/-- What the variable for a setting is set to, if it is set. -/
def setting (vars : Variables) (name : String) : Option String := vars (namePrefix ++ name)

/-- The setting as its variable gives it, if the value can be read, else as it is. -/
def apply (vars : Variables) (name : String) (read : String → Option α) (current : α) : α :=
  ((vars.setting name).bind read).getD current

/-- A whole number below a bound: blanks around it, perhaps a plus sign, and decimal digits. -/
def nat? (bound : Nat) (s : String) : Option Nat :=
  let cs := Text.trim s.toList
  let ds := match cs with
    | '+' :: ds => ds
    | ds => ds
  (Text.numeral? 10 ds).filter (· < bound)

/-- A floating point number with blanks around it. -/
def real? (s : String) : Option Float := Decimal.number? (Text.trim s.toList)

end Variables

namespace StoreConfig

/-- The settings of the store with the variables laid over them. -/
def overriddenBy (c : StoreConfig) (vars : Variables) : StoreConfig where
  endpoint := vars.apply "STORE_ENDPOINT" some c.endpoint
  timeoutMs := vars.apply "STORE_TIMEOUT_MS" (Variables.nat? (Word.range 64)) c.timeoutMs
  username := vars.apply "STORE_USERNAME" (some ∘ some) c.username
  password := vars.apply "STORE_PASSWORD" (some ∘ some) c.password

end StoreConfig

namespace Config

/-- The names of all variables that settings may be taken from. -/
def variableNames : List String :=
  ["QUEUE_CAPACITY", "QUEUE_MAX_BYTES", "BULK_REQUEST_MAX_BYTES", "SINGLE_PAYLOAD_THRESHOLD_BYTES",
    "BATCH_ELEMENT_THRESHOLD", "DRAIN_BATCH_SIZE", "MIN_BULK_BATCH_LEN", "MIN_RETRY_DELAY_MS",
    "MAX_RETRY_DELAY_MS", "MAX_WRITE_RETRIES", "SAMPLING_PROBABILITY", "INDEX_NAME",
    "STORE_ENDPOINT", "STORE_TIMEOUT_MS", "STORE_USERNAME", "STORE_PASSWORD"].map
    (Variables.namePrefix ++ ·)

/-- The settings with the variables laid over them. -/
def overriddenBy (c : Config) (vars : Variables) : Config :=
  let word := Variables.nat? (Word.range 64)
  { queueCapacity := vars.apply "QUEUE_CAPACITY" word c.queueCapacity
    queueMaxBytes := vars.apply "QUEUE_MAX_BYTES" word c.queueMaxBytes
    requestMaxBytes := vars.apply "BULK_REQUEST_MAX_BYTES" word c.requestMaxBytes
    singleThresholdBytes :=
      vars.apply "SINGLE_PAYLOAD_THRESHOLD_BYTES" word c.singleThresholdBytes
    batchThreshold := vars.apply "BATCH_ELEMENT_THRESHOLD" word c.batchThreshold
    drainLength := vars.apply "DRAIN_BATCH_SIZE" word c.drainLength
    minBulkLength := vars.apply "MIN_BULK_BATCH_LEN" word c.minBulkLength
    minRetryDelayMs := vars.apply "MIN_RETRY_DELAY_MS" word c.minRetryDelayMs
    maxRetryDelayMs := vars.apply "MAX_RETRY_DELAY_MS" word c.maxRetryDelayMs
    maxWriteRetries :=
      vars.apply "MAX_WRITE_RETRIES" (Variables.nat? (Word.range 32)) c.maxWriteRetries
    samplingProbability :=
      vars.apply "SAMPLING_PROBABILITY" Variables.real? c.samplingProbability
    indexName := vars.apply "INDEX_NAME" some c.indexName
    store := c.store.overriddenBy vars }

/-- One change to the default settings. -/
inductive Call
  | queueCapacity (n : Nat)
  | queueMaxBytes (n : Nat)
  | requestLimits (maxBytes singleThreshold : Nat)
  | batchThreshold (n : Nat)
  | drainLength (n : Nat)
  | minBulkLength (n : Nat)
  | retries (count minDelayMs maxDelayMs : Nat)
  | samplingProbability (x : Float)
  | indexName (s : String)
  | storeEndpoint (s : String)

/-- The configuration after one call of the builder. -/
def call (c : Config) : Call → Config
  | .queueCapacity n => { c with queueCapacity := n }
  | .queueMaxBytes n => { c with queueMaxBytes := n }
  | .requestLimits maxBytes singleThreshold =>
    { c with requestMaxBytes := maxBytes, singleThresholdBytes := singleThreshold }
  | .batchThreshold n => { c with batchThreshold := n }
  | .drainLength n => { c with drainLength := n }
  | .minBulkLength n => { c with minBulkLength := n }
  | .retries count minDelayMs maxDelayMs =>
    { c with
      maxWriteRetries := count, minRetryDelayMs := minDelayMs, maxRetryDelayMs := maxDelayMs }
  | .samplingProbability x => { c with samplingProbability := x }
  | .indexName s => { c with indexName := s }
  | .storeEndpoint s => { c with store := { c.store with endpoint := s } }

/-- The default settings after some changes, if the pipeline can run with them. -/
def build (calls : List Call) : Except RelayError Config := (calls.foldl call default).validate

end Config

end SpanRelay

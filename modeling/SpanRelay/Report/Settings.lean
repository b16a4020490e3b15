import SpanRelay.Config.Basic
import SpanRelay.Report.Printer

/-! # The report of the settings

`Config.printout` shows the settings that the pipeline runs with. `Config.masked` hides the password
first. -/

namespace SpanRelay

/-- What stands for a password. -/
def mask : String := "********"

namespace StoreConfig

/-- The settings of the store with the password hidden. -/
def masked (c : StoreConfig) : StoreConfig := { c with password := c.password.map fun _ => mask }

/-- The settings of the store as a section. -/
def fields (c : StoreConfig) : List (String × Report.Value) :=
  [("endpoint", .text c.endpoint), ("timeout_ms", .count c.timeoutMs)]
    ++ Report.optional "username" .text c.username ++ Report.optional "password" .text c.password

/-- The rows of the settings of the store; a hyphen stands for what is absent. -/
def rows (c : StoreConfig) : Table :=
  [.text "endpoint" c.endpoint, .count "timeout_ms" c.timeoutMs,
    .text "username" (c.username.getD "-"), .text "password" (c.password.getD "-")]

end StoreConfig

namespace Config

/-- The settings without the password of the store. -/
def masked (c : Config) : Config := { c with store := c.store.masked }

/-- The settings that are whole numbers, in their order. -/
def counts (c : Config) : List (String × Nat) :=
  [("queue_capacity", c.queueCapacity), ("queue_max_bytes", c.queueMaxBytes),
    ("bulk_request_max_bytes", c.requestMaxBytes),
    ("single_payload_threshold_bytes", c.singleThresholdBytes),
    ("batch_element_threshold", c.batchThreshold), ("drain_batch_size", c.drainLength),
    ("min_bulk_batch_len", c.minBulkLength), ("min_retry_delay_ms", c.minRetryDelayMs),
    ("max_retry_delay_ms", c.maxRetryDelayMs), ("max_write_retries", c.maxWriteRetries)]

/-- The fields of the report, those of the store in a section. -/
def report (c : Config) : Report where
  fields := c.counts.map (fun f => (f.1, .count f.2))
    ++ [("sampling_probability", .real c.samplingProbability), ("index_name", .text c.indexName)]
  sections := [("store", c.store.fields)]

/-- The lines for a reader, those for the store under a heading of their own. -/
def table (c : Config) : Table :=
  .heading "Pipeline configuration" :: c.counts.map (fun f => .count f.1 f.2)
    ++ [.row "sampling_probability" (.plain (Decimal.Layout.plain.write c.samplingProbability)),
      .text "index_name" c.indexName, .heading "Store"]
    ++ c.store.rows

/-- What the settings look like in each form. -/
def printout (c : Config) : Printout := ⟨c.report, c.table⟩

end Config

end SpanRelay

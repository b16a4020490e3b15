import SpanRelay.File.Directory
import SpanRelay.Main
import SpanRelay.Store.Scripted
import SpanRelay.Proofs.Map.Keyed
import SpanRelay.Proofs.Writer.Latest
import SpanRelay.Proofs.Writer.Requests
import SpanRelay.Proofs.Queue.Bytes
import SpanRelay.Proofs.Writer.Course
import SpanRelay.Proofs.Writer.Settlement
import SpanRelay.Proofs.Writer.Shutdown
import SpanRelay.Proofs.Writer.Conservation
import SpanRelay.Proofs.Registry.Effect
import SpanRelay.Proofs.Registry.Sound
import SpanRelay.Proofs.Session.Race
import SpanRelay.Proofs.Writer.Prospect
import SpanRelay.Proofs.Session.Calls
import SpanRelay.Proofs.Pipeline.Run
import SpanRelay.Proofs.Session.Cached
import SpanRelay.Proofs.Session.Run
import SpanRelay.Proofs.Session.Steady
import SpanRelay.Proofs.Session.Held
import SpanRelay.Proofs.Session.Failing
import SpanRelay.Proofs.Pipeline.Documents
import SpanRelay.Proofs.Registry.Finished
import SpanRelay.Proofs.Writer.Sent
import SpanRelay.Proofs.Pipeline.Finished
import SpanRelay.Proofs.Pipeline.Failure
import SpanRelay.Proofs.Registry.Stale
import SpanRelay.Proofs.Writer.Offers
import SpanRelay.Proofs.Session.Boundary
import SpanRelay.Proofs.Decimal.Shortest
import SpanRelay.Proofs.Decimal.Binary
import SpanRelay.Proofs.Text.Digits
import SpanRelay.Proofs.Decimal.Numeral
import SpanRelay.Proofs.Json.Scalar
import SpanRelay.Proofs.Json.Reread
import SpanRelay.Proofs.Json.Printable
import SpanRelay.Proofs.Json.Exact
import SpanRelay.Proofs.Json.Slots
import SpanRelay.Proofs.Timestamp.Reread
import SpanRelay.Proofs.Record.Written
import SpanRelay.Proofs.Record.Reread
import SpanRelay.Proofs.Writer.Faltering
import SpanRelay.Proofs.Store.Memory
import SpanRelay.Proofs.Writer.Refinement
import SpanRelay.Proofs.Queue.Traffic
import SpanRelay.Proofs.Registry.Concealed
import SpanRelay.Proofs.Pipeline.Confidential
import SpanRelay.Proofs.Session.Parents
import SpanRelay.Proofs.Writer.Fates
import SpanRelay.Proofs.Writer.Flush
import SpanRelay.Proofs.Store.Http
import SpanRelay.Proofs.Store.Framing
import SpanRelay.Proofs.Session.Tree
import SpanRelay.Proofs.Pipeline.Tree
import SpanRelay.Proofs.Session.Own
import SpanRelay.Proofs.Pipeline.Course
import SpanRelay.Proofs.Pipeline.Memory
import SpanRelay.Proofs.Simulation.Script
import SpanRelay.Proofs.Simulation.Interleaving
import SpanRelay.Proofs.Simulation.Schedule
import SpanRelay.Proofs.Simulation.Steps
import SpanRelay.Proofs.Simulation.Outcome
import SpanRelay.Proofs.Registry.Search
import SpanRelay.Proofs.Writer.Sending
import SpanRelay.Proofs.Writer.Formation
import SpanRelay.Proofs.Writer.Retry
import SpanRelay.Proofs.Session.Stores
import SpanRelay.Proofs.Config.Layers
import SpanRelay.Proofs.Config.Loading
import SpanRelay.Proofs.Store.Items
import SpanRelay.Proofs.Writer.Delay
import SpanRelay.Proofs.Writer.Rests
import SpanRelay.Proofs.Writer.Deduplication
import SpanRelay.Proofs.Timestamp.Elapsed
import SpanRelay.Proofs.Record.Lifecycle
import SpanRelay.Proofs.Session.Outcomes
import SpanRelay.Proofs.Pipeline.Outcomes
import SpanRelay.Proofs.Session.Occurrence
import SpanRelay.Proofs.Session.Clash

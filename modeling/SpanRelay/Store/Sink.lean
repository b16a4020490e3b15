import SpanRelay.Event
import SpanRelay.Store.Document

/-! # Stores

A `Sink` is a bulk store as its writer meets it: an overwrite-by-id store that takes a request,
thinks about it for a while and answers. What it remembers is a value of its state type. -/

namespace SpanRelay

/-- What a store answers to a request: one item for each document, or that the request failed as a
whole. -/
abbrev Answer := Except RelayError BulkResponse

/-- A bulk store with states in `σ`. -/
structure Sink (σ : Type) where
  name : String
  /-- The state after a request for an index arrived at a time, and the nanoseconds until the
  answer. -/
  receive : Nat → String → List Document → σ → σ × Nat
  /-- The state after the answer to the request, the events noted over it, and the answer. -/
  answer : String → List Document → σ → σ × List Event × Answer

end SpanRelay

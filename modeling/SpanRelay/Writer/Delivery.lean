import SpanRelay.Account
import SpanRelay.Store.Sink
import SpanRelay.Writer.Backoff

/-! # Deliveries

A `Delivery` is one batch on its way into the store, repeated until nothing is left to send.
`Delivery.settle` is what an answer does to it: documents that were indexed or rejected for good
leave it, the others are sent again while repetitions remain, and the delay moves with success and
failure. -/

namespace SpanRelay

/-- The documents still to be sent, and what went wrong so far. -/
structure Delivery where
  documents : List Document
  /-- How many requests failed or left documents over. -/
  attempts : Nat
  /-- The first few reasons for failures. -/
  reasons : List String
  errors : Nat
deriving DecidableEq, Repr

/-- How many reasons are remembered. -/
def maxReasons : Nat := 5

/-- What an answer leaves: the delay, the account, and the delivery if it has to go on. -/
structure Settlement where
  backoff : Backoff
  account : Account
  next : Option Delivery
deriving DecidableEq, Repr

namespace Delivery

/-- A delivery before its first request. -/
def of (documents : List Document) : Delivery := ⟨documents, 0, [], 0⟩

/-- The delivery with one more failure, its reason remembered while there is room. -/
def addReason (d : Delivery) (reason : String) : Delivery :=
  { d with
    errors := d.errors + 1
    reasons := if d.reasons.length < maxReasons then d.reasons ++ [reason] else d.reasons }

/-- The reason a failed item gives. -/
def itemReason (i : BulkItem) : String :=
  let reason := i.error.getD "unknown"
  s!"{i.id} ({i.status.toNat}): {reason}"

/-- The documents that an answer allows to send again: those with a failed item that is worth it. -/
def retained (documents : List Document) (failures : List BulkItem) : List Document :=
  let ids := (failures.filter BulkItem.isRetryable).map BulkItem.id
  documents.filter fun doc => ids.contains doc.id

/-- What follows a failure: one more repetition, or the loss of the documents left. -/
def retry (d : Delivery) (maxRetries : Nat) (backoff : Backoff) (a : Account) : Settlement :=
  let d := { d with attempts := d.attempts + 1 }
  if maxRetries < d.attempts then
    let a := a.addLost d.documents.length
    ⟨backoff, a.note (.exhausted d.documents.length d.attempts d.errors d.reasons), none⟩
  else ⟨backoff, a.note (.retrying d.documents.length d.attempts backoff.millis), some d⟩

/-- What an answer with failed items leaves. -/
def settleFailures (d : Delivery) (maxRetries : Nat) (backoff : Backoff) (a : Account)
    (failures : List BulkItem) : Settlement :=
  let d := failures.foldl (fun d i => d.addReason (itemReason i)) d
  let lost := (failures.filter fun i => !i.isRetryable).length
  let a := a.addFlushed (d.documents.length - failures.length)
  let a := if 0 < lost then (a.addLost lost).note (.rejected lost d.reasons) else a
  let left := retained d.documents failures
  if left.isEmpty then ⟨backoff.decrease, a, none⟩
  else { d with documents := left }.retry maxRetries backoff.increase a

/-- What an answer leaves of a delivery. -/
def settle (d : Delivery) (maxRetries : Nat) (backoff : Backoff) (a : Account) (answer : Answer) :
    Settlement :=
  match answer with
  | .ok response =>
    if response.hasFailures then d.settleFailures maxRetries backoff a response.failures
    else ⟨backoff.decrease, a.addFlushed d.documents.length, none⟩
  | .error e =>
    let d := d.addReason e.message
    if e.isRetryable then d.retry maxRetries backoff.increase a
    else
      let lost := d.documents.length
      ⟨backoff, (a.addLost lost).note (.failed lost e), none⟩

end Delivery

end SpanRelay

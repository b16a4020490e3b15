import SpanRelay.Writer.Batch
import SpanRelay.Writer.Delivery

/-! # The writer

The `Writer` is the one consumer of the write queue. It takes out what is queued, forms requests and
delivers them one after the other, resting before a request as its delay asks. A `Desk` is the
writer with all that it shares with the hooks and the store; `Desk.step?` is its next move at the
current time, and `Desk.run` makes it move until it waits for the queue or the time is up. -/

namespace SpanRelay

/-- What the writer does at the moment. -/
inductive Phase
  /-- It looks what there is to do. -/
  | ready
  /-- It rests until a time before it sends a request. -/
  | resting (wake : Nat) (delivery : Delivery)
  /-- It waits for the answer of the store, which comes at a time. -/
  | waiting (wake : Nat) (delivery : Delivery)
  | stopped
deriving DecidableEq, Repr

/-- What the writer is set up with. -/
structure WriterSettings where
  index : String
  /-- How many elements it takes out of the queue at once. -/
  drainLength : Nat
  limits : BatchLimits
  maxRetries : Nat
deriving DecidableEq, Repr

/-- The consumer of the queue. -/
structure Writer where
  settings : WriterSettings
  backoff : Backoff
  phase : Phase
  /-- The requests to deliver after the present one. -/
  ahead : List (List Document)
  /-- Whether it has been told to stop. -/
  stopping : Bool
  /-- Whether it empties the closed queue for the last time. -/
  closing : Bool
deriving DecidableEq, Repr

/-- A writer that has not begun. -/
def Writer.of (settings : WriterSettings) (backoff : Backoff) : Writer :=
  ⟨settings, backoff, .ready, [], false, false⟩

/-- The writer and what it shares with the hooks and the store. -/
structure Desk (σ : Type) where
  /-- The time in nanoseconds. -/
  now : Nat
  queue : WriteQueue
  account : Account
  writer : Writer
  store : σ

namespace Desk

variable {σ : Type}

/-- A desk at time zero with an empty queue. -/
def of (queue : WriteQueue) (writer : Writer) (store : σ) : Desk σ :=
  ⟨0, queue, .empty, writer, store⟩

/-- The desk after a span was offered to the queue. -/
def schedule (d : Desk σ) (span : Span) : Desk σ × ScheduleOutcome :=
  let (queue, account, outcome) := d.queue.schedule d.account span
  ({ d with queue, account }, outcome)

/-- The desk after some spans were offered to the queue. -/
def scheduleAll (d : Desk σ) (spans : List Span) : Desk σ :=
  spans.foldl (fun d span => (d.schedule span).1) d

/-- The desk with the requests for some spans put ahead of the writer. -/
def enqueueSpans (d : Desk σ) (spans : List Span) : Desk σ :=
  { d with writer := { d.writer with ahead := batches d.writer.settings.limits spans } }

/-- The desk after some elements were taken out of the queue: their bytes are released, and the
last version of each span is up for delivery. -/
def process (d : Desk σ) (elements : List QueueElement) (queue : WriteQueue) : Desk σ :=
  { d with queue := elements.foldl WriteQueue.release queue }.enqueueSpans (latest elements)

/-- The desk with a delivery that rests as the delay asks. -/
def rest (d : Desk σ) (delivery : Delivery) : Desk σ :=
  { d with
    writer := { d.writer with phase := .resting (d.now + d.writer.backoff.current) delivery } }

/-- The desk after a request was sent. -/
def send (sink : Sink σ) (d : Desk σ) (delivery : Delivery) : Desk σ :=
  let (store, pause) := sink.receive d.now d.writer.settings.index delivery.documents d.store
  { d with store, writer := { d.writer with phase := .waiting (d.now + pause) delivery } }

/-- The desk after the answer to a request. -/
def hear (sink : Sink σ) (d : Desk σ) (delivery : Delivery) : Desk σ :=
  let (store, events, answer) := sink.answer d.writer.settings.index delivery.documents d.store
  let account := events.foldl Account.note d.account
  let s := delivery.settle d.writer.settings.maxRetries d.writer.backoff account answer
  let d := { d with
    store
    account := s.account
    writer := { d.writer with backoff := s.backoff, phase := .ready } }
  match s.next with
  | some delivery => d.rest delivery
  | none => d

/-- The desk with the queue closed, to be emptied for the last time. -/
def close (d : Desk σ) : Desk σ :=
  { d with queue := d.queue.close, writer := { d.writer with closing := true } }

/-- The next move when nothing is left to deliver: the next elements of the queue, if there are any;
but the last emptying of the queue once the writer is told to stop or the queue is exhausted. -/
def next? (d : Desk σ) : Option (Desk σ) :=
  let w := d.writer
  if w.closing then
    match d.queue.drain w.settings.drainLength with
    | ([], _) => some { d with writer := { w with phase := .stopped } }
    | (elements, queue) => some (d.process elements queue)
  else if w.stopping || d.queue.isExhausted then some d.close
  else
    match d.queue.drain (max 1 w.settings.drainLength) with
    | ([], _) => none
    | (elements, queue) => some (d.process elements queue)

/-- The next move of the writer at the current time; `none` if it waits for the queue or for a
later time, or has stopped. -/
def step? (sink : Sink σ) (d : Desk σ) : Option (Desk σ) :=
  match d.writer.phase with
  | .stopped => none
  | .resting wake delivery => if wake ≤ d.now then some (d.send sink delivery) else none
  | .waiting wake delivery => if wake ≤ d.now then some (d.hear sink delivery) else none
  | .ready =>
    match d.writer.ahead with
    | batch :: ahead =>
      some ({ d with writer := { d.writer with ahead } }.rest (.of batch))
    | [] => d.next?

/-- The later time for which the writer waits. -/
def wake? (d : Desk σ) : Option Nat :=
  match d.writer.phase with
  | .resting wake _ | .waiting wake _ => some wake
  | .ready | .stopped => none

/-- The desk after at most `fuel` moves up to a time, without an end if there is none. Time passes
only while the writer rests or waits. -/
def moves (sink : Sink σ) (limit : Option Nat) : Nat → Desk σ → Desk σ
  | 0, d => d
  | fuel + 1, d =>
    match d.step? sink with
    | some d => moves sink limit fuel d
    | none =>
      match d.wake? with
      | none => d
      | some wake =>
        if limit.all (wake ≤ ·) then moves sink limit fuel { d with now := wake } else d

/-- More moves than the writer has before it: every document takes at most the requests that the
repetitions allow, and each request three moves and two passages of time. -/
def moveBound (d : Desk σ) : Nat :=
  let documents := d.queue.elements.length + d.writer.ahead.flatten.length + 1
  6 * (d.writer.settings.maxRetries + 2) * (documents + 1) + 6

/-- The desk when the writer waits for the queue or for a time after `limit`, or has stopped. -/
def run (sink : Sink σ) (limit : Option Nat) (d : Desk σ) : Desk σ :=
  moves sink limit d.moveBound d

/-- The desk after the writer had its turn, without time passing. -/
def turn (sink : Sink σ) (d : Desk σ) : Desk σ := d.run sink (some d.now)

/-- The desk after some time has passed. -/
def advance (sink : Sink σ) (nanos : Nat) (d : Desk σ) : Desk σ :=
  { d.run sink (some (d.now + nanos)) with now := d.now + nanos }

/-- The desk after the writer was told to stop and has stopped, when all that was queued is dealt
with. -/
def shutdown (sink : Sink σ) (d : Desk σ) : Desk σ :=
  { d with writer := { d.writer with stopping := true } }.run sink none

end Desk

end SpanRelay

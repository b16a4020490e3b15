import Mathlib.Algebra.GroupWithZero.Nat
import Mathlib.Data.List.Perm.Basic
import SpanRelay.Proofs.Queue.Bytes

/-! # Traffic through the queue

Spans are offered, elements are taken out, and each element that was taken out is released once, at
any later time and in any order. A `Traffic` is a queue together with the elements that are `out`,
and with what became of the spans offered so far. Whatever the order of the actions, it stays
`Orderly`: the bytes in use are those of the elements inside and out, within the ceiling, and the
counters agree with the outcomes (`Orderly.perform`, `orderly_run`). -/

namespace SpanRelay

theorem totalSize_perm {es fs : List QueueElement} (h : es.Perm fs) : totalSize es = totalSize fs := by
  induction h with
  | nil => rfl
  | cons e _ ih => rw [totalSize, totalSize, ih]
  | swap e f es =>
    simp only [totalSize]
    omega
  | trans _ _ ih ih' => exact ih.trans ih'

theorem size_le_totalSize {e : QueueElement} {es : List QueueElement} (h : e ∈ es) :
    e.size ≤ totalSize es := by
  obtain ⟨before, after, rfl⟩ := List.append_of_mem h
  rw [totalSize_append, totalSize]
  omega

theorem totalSize_eq_sum {es : List QueueElement} (h : ∀ e ∈ es, e = .of e.span) :
    totalSize es = (es.map fun e => e.span.estimatedBytes).sum := by
  induction es with
  | nil => rfl
  | cons e es ih =>
    have hsize : e.size = e.span.estimatedBytes := congrArg QueueElement.size (h e (by simp))
    rw [totalSize, ih fun f hf => h f (List.mem_cons_of_mem e hf), hsize, List.map_cons,
      List.sum_cons]

namespace WriteQueue

variable {q : WriteQueue} {out : List QueueElement} {span : Span}

theorem Exact.perm {out' : List QueueElement} (h : q.Exact out) (hp : out.Perm out') : q.Exact out' where
  used := by rw [h.used, totalSize_perm hp]
  countable := h.countable

theorem Exact.size_le {e : QueueElement} (h : q.Exact out) (he : e ∈ out) :
    e.size ≤ q.budget.used := by
  have := size_le_totalSize he
  have := h.used
  omega

/-- To release an element that is out does not wrap below zero. -/
theorem Exact.queuedBytes_release {e : QueueElement} (h : q.Exact out) (he : e ∈ out) :
    (q.release e).queuedBytes = q.queuedBytes - e.size :=
  Budget.used_release (h.size_le he) h.countable

/-- **A span is accepted** if and only if both limits leave room for it and the queue is open. -/
theorem schedule_queued_iff (a : Account) (hf : q.Counts span) :
    (q.schedule a span).2.2 = .queued ↔ q.budget.used + span.estimatedBytes ≤ q.budget.capacity ∧
      q.elements.length < q.capacity ∧ q.closed = false := by
  rcases schedule_cases a hf with ⟨hs, hle, -, hc, hl⟩ | ⟨hs, hlt⟩ | ⟨hs, -, hc⟩ | ⟨hs, -, -, hl⟩
  · simp [hs, hle, hc, hl]
  · simp [hs, Nat.not_le.2 hlt]
  · simp [hs, hc]
  · simp [hs, Nat.not_lt.2 hl]

theorem queue_schedule_of_queued {a : Account} (hf : q.Counts span)
    (h : (q.schedule a span).2.2 = .queued) : (q.schedule a span).1 = q.push (.of span) := by
  rcases schedule_cases a hf with ⟨hs, -⟩ | ⟨hs, -⟩ | ⟨hs, -⟩ | ⟨hs, -⟩
  · rw [hs]
  all_goals
    rw [hs] at h
    cases h

theorem queue_schedule_of_refused {a : Account} (hf : q.Counts span)
    (h : (q.schedule a span).2.2 ≠ .queued) : (q.schedule a span).1 = q := by
  rcases schedule_cases a hf with ⟨hs, -⟩ | ⟨hs, -⟩ | ⟨hs, -⟩ | ⟨hs, -⟩
  · exact absurd (by rw [hs]) h
  all_goals rw [hs]

/-- An offer adds one to the counter that its outcome calls for, and nothing to the others. -/
theorem tally_schedule (a : Account) (hf : q.Counts span) :
    (q.schedule a span).2.1.tally = { a.tally with
      scheduled := a.tally.scheduled + [(q.schedule a span).2.2].count .queued
      dropped := a.tally.dropped + [(q.schedule a span).2.2].count .droppedOverWatermark +
        [(q.schedule a span).2.2].count .droppedQueueFull } := by
  rcases schedule_cases a hf with ⟨hs, -⟩ | ⟨hs, -⟩ | ⟨hs, -⟩ | ⟨hs, -⟩
  · rw [hs]
    rfl
  · rw [hs]
    exact tally_accountDrop q a _ _
  · rw [hs]
    rfl
  · rw [hs]
    exact tally_accountDrop q a _ _

end WriteQueue

/-- What may be done to a queue. -/
inductive QueueAction
  | offer (span : Span)
  /-- Up to so many elements are taken out. -/
  | drain (max : Nat)
  /-- The bytes of an element that is out are released; it is found at this place among them. -/
  | release (place : Nat)
  | close

/-- A queue in use. -/
structure Traffic where
  queue : WriteQueue
  account : Account
  /-- The elements that were taken out and not yet released. -/
  out : List QueueElement
  /-- What became of the spans offered so far. -/
  outcomes : List ScheduleOutcome

namespace Traffic

/-- The traffic of a new queue. -/
def of (capacity maxBytes : Nat) : Traffic := ⟨.of capacity maxBytes, .empty, [], []⟩

/-- The traffic after an action. Where there is no element to release, nothing is released. -/
def perform (t : Traffic) : QueueAction → Traffic
  | .offer span =>
    let answer := t.queue.schedule t.account span
    { t with queue := answer.1, account := answer.2.1, outcomes := t.outcomes ++ [answer.2.2] }
  | .drain max =>
    let answer := t.queue.drain max
    { t with queue := answer.2, out := t.out ++ answer.1 }
  | .release place =>
    match t.out[place]? with
    | none => t
    | some e => { t with queue := t.queue.release e, out := t.out.eraseIdx place }
  | .close => { t with queue := t.queue.close }

/-- The traffic after some actions, one after the other. -/
def run (t : Traffic) (as : List QueueAction) : Traffic := as.foldl perform t

variable {t : Traffic} {capacity maxBytes : Nat}

/-- What is true of the traffic of a queue with the given limits, at every moment. -/
structure Orderly (t : Traffic) (capacity maxBytes : Nat) : Prop where
  ceiling : t.queue.budget.capacity = maxBytes
  slots : t.queue.capacity = capacity
  exact : t.queue.Exact t.out
  within : t.queue.budget.used ≤ maxBytes
  short : t.queue.elements.length ≤ capacity
  weighed : ∀ e ∈ t.queue.elements ++ t.out, e = .of e.span
  scheduled : t.account.tally.scheduled = t.outcomes.count .queued
  dropped : t.account.tally.dropped =
    t.outcomes.count .droppedOverWatermark + t.outcomes.count .droppedQueueFull

theorem orderly_of (capacity maxBytes : Nat) : (of capacity maxBytes).Orderly capacity maxBytes where
  ceiling := rfl
  slots := rfl
  exact := .of capacity maxBytes
  within := Nat.zero_le _
  short := Nat.zero_le _
  weighed _ he := absurd he List.not_mem_nil
  scheduled := rfl
  dropped := rfl

theorem Orderly.counts (h : t.Orderly capacity maxBytes) (hb : maxBytes < byteRange - 1)
    (span : Span) : t.queue.Counts span :=
  Or.inl (by rw [h.ceiling]; exact hb)

theorem Orderly.counters_offer (h : t.Orderly capacity maxBytes) (hb : maxBytes < byteRange - 1)
    (span : Span) :
    let after := t.perform (.offer span)
    after.account.tally.scheduled = after.outcomes.count .queued ∧ after.account.tally.dropped =
      after.outcomes.count .droppedOverWatermark + after.outcomes.count .droppedQueueFull := by
  have htally := WriteQueue.tally_schedule t.account (h.counts hb span)
  have hs := h.scheduled
  have hd := h.dropped
  dsimp only [perform]
  rw [htally, List.count_append, List.count_append, List.count_append]
  dsimp only
  omega

theorem Orderly.offer (h : t.Orderly capacity maxBytes) (hb : maxBytes < byteRange - 1)
    (span : Span) : (t.perform (.offer span)).Orderly capacity maxBytes := by
  have hf := h.counts hb span
  obtain ⟨hscheduled, hdropped⟩ := h.counters_offer hb span
  by_cases hq : (t.queue.schedule t.account span).2.2 = .queued
  · obtain ⟨hle, hl, -⟩ := (WriteQueue.schedule_queued_iff t.account hf).1 hq
    rw [h.ceiling] at hle
    rw [h.slots] at hl
    have hqueue : (t.perform (.offer span)).queue = t.queue.push (.of span) :=
      WriteQueue.queue_schedule_of_queued hf hq
    refine ⟨?_, ?_, ?_, ?_, ?_, ?_, hscheduled, hdropped⟩
    · rw [hqueue]
      exact h.ceiling
    · rw [hqueue]
      exact h.slots
    · rw [hqueue]
      exact h.exact.push (show t.queue.budget.used + span.estimatedBytes < byteRange by omega)
    · rw [hqueue]
      exact hle
    · rw [hqueue, WriteQueue.push, List.length_append]
      exact hl
    · intro e he
      rw [hqueue, WriteQueue.push, List.append_assoc, List.mem_append, List.mem_append,
        List.mem_singleton] at he
      rcases he with he | rfl | he
      · exact h.weighed e (List.mem_append_left _ he)
      · rfl
      · exact h.weighed e (List.mem_append_right _ he)
  · have hqueue : (t.perform (.offer span)).queue = t.queue :=
      WriteQueue.queue_schedule_of_refused hf hq
    refine ⟨?_, ?_, ?_, ?_, ?_, ?_, hscheduled, hdropped⟩
    all_goals rw [hqueue]
    exacts [h.ceiling, h.slots, h.exact, h.within, h.short, h.weighed]

theorem Orderly.drain (h : t.Orderly capacity maxBytes) (max : Nat) :
    (t.perform (.drain max)).Orderly capacity maxBytes where
  ceiling := h.ceiling
  slots := h.slots
  exact := (h.exact.drain max).perm List.perm_append_comm
  within := h.within
  short := by
    have := h.short
    simp only [perform, WriteQueue.drain, List.length_drop]
    omega
  weighed := by
    intro e he
    refine h.weighed e ?_
    simp only [perform, WriteQueue.drain, List.mem_append] at he ⊢
    rcases he with he | he | he
    · exact Or.inl (List.mem_of_mem_drop he)
    · exact Or.inr he
    · exact Or.inl (List.mem_of_mem_take he)
  scheduled := h.scheduled
  dropped := h.dropped

theorem Orderly.release (h : t.Orderly capacity maxBytes) (place : Nat) :
    (t.perform (.release place)).Orderly capacity maxBytes := by
  unfold perform
  dsimp only
  split
  · exact h
  · rename_i e he
    obtain ⟨hplace, rfl⟩ := List.getElem?_eq_some_iff.1 he
    have hperm := List.getElem_cons_eraseIdx_perm hplace
    have hused := h.exact.queuedBytes_release (List.getElem_mem hplace)
    refine ⟨h.ceiling, h.slots, (h.exact.perm hperm.symm).release, ?_, h.short, ?_, h.scheduled,
      h.dropped⟩
    · have := h.within
      unfold WriteQueue.queuedBytes at hused
      dsimp only
      omega
    · intro e he
      refine h.weighed e ?_
      rw [List.mem_append] at he ⊢
      exact he.imp_right List.mem_of_mem_eraseIdx

/-- **Every action keeps the traffic orderly.** -/
theorem Orderly.perform (h : t.Orderly capacity maxBytes) (hb : maxBytes < byteRange - 1)
    (a : QueueAction) : (t.perform a).Orderly capacity maxBytes := by
  cases a with
  | offer span => exact h.offer hb span
  | drain max => exact h.drain max
  | release place => exact h.release place
  | close => exact ⟨h.ceiling, h.slots, ⟨h.exact.used, h.exact.countable⟩, h.within, h.short, h.weighed,
      h.scheduled, h.dropped⟩

theorem Orderly.run (h : t.Orderly capacity maxBytes) (hb : maxBytes < byteRange - 1)
    (as : List QueueAction) : (t.run as).Orderly capacity maxBytes := by
  induction as generalizing t with
  | nil => exact h
  | cons a as ih => exact ih (h.perform hb a)

theorem closed_perform (h : t.Orderly capacity maxBytes) (hb : maxBytes < byteRange - 1)
    (a : QueueAction) : (t.perform a).queue.closed = true ↔ t.queue.closed = true ∨ a = .close := by
  cases a with
  | offer span =>
    have hf := h.counts hb span
    have hqueue : (t.perform (.offer span)).queue.closed = t.queue.closed := by
      dsimp only [Traffic.perform]
      by_cases hq : (t.queue.schedule t.account span).2.2 = .queued
      · rw [WriteQueue.queue_schedule_of_queued hf hq]
        rfl
      · rw [WriteQueue.queue_schedule_of_refused hf hq]
    simp [hqueue]
  | drain max => simp [Traffic.perform, WriteQueue.drain]
  | release place =>
    have hqueue : (t.perform (.release place)).queue.closed = t.queue.closed := by
      unfold Traffic.perform
      dsimp only
      split <;> rfl
    simp [hqueue]
  | close => simp [Traffic.perform, WriteQueue.close]

theorem closed_run (h : t.Orderly capacity maxBytes) (hb : maxBytes < byteRange - 1)
    (as : List QueueAction) :
    (t.run as).queue.closed = true ↔ t.queue.closed = true ∨ .close ∈ as := by
  induction as generalizing t with
  | nil => simp [Traffic.run]
  | cons a as ih =>
    have hrun : t.run (a :: as) = (t.perform a).run as := rfl
    rw [hrun, ih (h.perform hb a), closed_perform h hb, or_assoc, List.mem_cons, eq_comm (a := a)]

/-- **The account of bytes and slots is exact at every moment.** Whatever was done to a new queue,
the bytes in use are those of the elements in it and of the elements that are out, within the
ceiling, and no more elements are in it than it has slots. To release any of those that are out
does not wrap. The counters are those of the outcomes, and the next span is accepted if and only if
both limits leave room and nobody closed the queue; if it is refused, the queue stays as it is. -/
theorem queuedBytes_run (capacity : Nat) {maxBytes : Nat} (hb : maxBytes < byteRange - 1)
    (as : List QueueAction) :
    let t := (of capacity maxBytes).run as
    (t.queue.queuedBytes = ((t.queue.elements ++ t.out).map fun e => e.span.estimatedBytes).sum ∧
      t.queue.queuedBytes ≤ maxBytes ∧ t.queue.elements.length ≤ capacity) ∧
    (∀ e ∈ t.out, e.size ≤ t.queue.queuedBytes ∧
      (t.queue.release e).queuedBytes = t.queue.queuedBytes - e.size) ∧
    (t.account.tally.scheduled = t.outcomes.count .queued ∧ t.account.tally.dropped =
      t.outcomes.count .droppedOverWatermark + t.outcomes.count .droppedQueueFull) ∧
    ∀ span : Span, let answer := t.queue.schedule t.account span
      (answer.2.2 = .queued ↔ t.queue.queuedBytes + span.estimatedBytes ≤ maxBytes ∧
        t.queue.elements.length < capacity ∧ .close ∉ as) ∧
      (answer.2.2 = .queued → answer.1 = t.queue.push (.of span)) ∧
      (answer.2.2 ≠ .queued → answer.1 = t.queue) := by
  intro t
  have h : t.Orderly capacity maxBytes := (orderly_of capacity maxBytes).run hb as
  have hclosed := closed_run (orderly_of capacity maxBytes) hb as
  refine ⟨⟨?_, h.within, h.short⟩, fun e he => ⟨h.exact.size_le he, h.exact.queuedBytes_release he⟩,
    ⟨h.scheduled, h.dropped⟩, fun span => ?_⟩
  · rw [← totalSize_eq_sum h.weighed, totalSize_append]
    exact h.exact.used
  · have hf := h.counts hb span
    refine ⟨?_, WriteQueue.queue_schedule_of_queued hf, WriteQueue.queue_schedule_of_refused hf⟩
    have hopen : t.queue.closed = false ↔ .close ∉ as := by
      rw [← Bool.not_eq_true, hclosed]
      simp [of, WriteQueue.of]
    have hiff := WriteQueue.schedule_queued_iff t.account hf
    rw [h.ceiling, h.slots, hopen] at hiff
    exact hiff

/-- A queue of two slots and five bytes. The first two spans are taken out and the second of them is
released before the first; a third is too heavy while the first is out, and a fourth comes after
the queue was closed. -/
theorem queuedBytes_run_mixed :
    let carrying (id body : String) : Span :=
      { Span.bare id with before := some (Snapshot.empty.withBody body) }
    let as := [.offer (carrying "a" "abc"), .offer (carrying "b" "de"), .drain 2, .release 1,
      .offer (carrying "c" "fgh"), .close, .offer (carrying "d" "i")]
    let t := (of 2 5).run as
    5 < byteRange - 1 ∧ t.outcomes = [.queued, .queued, .droppedOverWatermark, .closed] ∧
      t.out.map QueueElement.id = ["a"] ∧
      t.queue.queuedBytes = ((t.queue.elements ++ t.out).map fun e => e.span.estimatedBytes).sum ∧
      t.account.tally.dropped = 1 ∧
      ∀ e ∈ t.out, (t.queue.release e).queuedBytes = t.queue.queuedBytes - e.size := by
  intro carrying as t
  have hb : 5 < byteRange - 1 := by decide
  obtain ⟨⟨hused, -⟩, hout, ⟨-, hdropped⟩, -⟩ := queuedBytes_run 2 hb as
  have houtcomes : t.outcomes = [.queued, .queued, .droppedOverWatermark, .closed] := by
    decide +kernel
  refine ⟨hb, houtcomes, by decide +kernel, hused, ?_, fun e he => (hout e he).2⟩
  rw [hdropped, houtcomes]
  rfl

end Traffic

end SpanRelay

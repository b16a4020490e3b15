import SpanRelay.Queue
import SpanRelay.Record.Session

/-! # The bytes in use

A queue is `Exact` for some elements outside it if the bytes in use are those of the elements inside
and outside, without an overflow. Taking elements out keeps it exact (`Exact.drain`), and so does
releasing one that is outside (`Exact.release`). `schedule_cases` is all that an offer can do: it
puts the span at the end, or leaves the queue exactly as it was. -/

namespace SpanRelay

/-- The estimated bytes of some elements. -/
def totalSize : List QueueElement → Nat
  | [] => 0
  | e :: es => e.size + totalSize es

theorem totalSize_append (es fs : List QueueElement) :
    totalSize (es ++ fs) = totalSize es + totalSize fs := by
  induction es with
  | nil => simp [totalSize]
  | cons e es ih =>
    rw [List.cons_append, totalSize, totalSize, ih]
    omega

namespace WriteQueue

/-- The bytes in use are those of the elements in the queue and of the elements `out`, which were
taken out and not yet released. -/
structure Exact (q : WriteQueue) (out : List QueueElement) : Prop where
  used : q.budget.used = totalSize q.elements + totalSize out
  countable : q.budget.used < byteRange

/-- The bytes of a span can be counted together with those in use: the ceiling is below the greatest
count, or the sum is. -/
def Counts (q : WriteQueue) (span : Span) : Prop :=
  q.budget.capacity < byteRange - 1 ∨ q.budget.used + span.estimatedBytes < byteRange

/-- The queue with an element at the end and its bytes in use. -/
def push (q : WriteQueue) (e : QueueElement) : WriteQueue :=
  { q with budget := { q.budget with used := q.budget.used + e.size }, elements := q.elements ++ [e] }

variable {q : WriteQueue} {out : List QueueElement}

theorem Exact.of (capacity maxBytes : Nat) : (WriteQueue.of capacity maxBytes).Exact [] :=
  ⟨rfl, by simp only [WriteQueue.of, Budget.of, byteRange, Word.range_64]; omega⟩

theorem Exact.drain (h : q.Exact out) (max : Nat) : (q.drain max).2.Exact ((q.drain max).1 ++ out) where
  used := by
    have hsplit := totalSize_append (q.elements.take max) (q.elements.drop max)
    rw [List.take_append_drop] at hsplit
    have := h.used
    simp only [WriteQueue.drain, totalSize_append]
    omega
  countable := h.countable

theorem Exact.release {e : QueueElement} (h : q.Exact (e :: out)) : (q.release e).Exact out := by
  have hu := h.used
  rw [totalSize] at hu
  have hr : (q.release e).budget.used = q.budget.used - e.size :=
    Budget.used_release (by omega) h.countable
  refine ⟨?_, by have := h.countable; omega⟩
  rw [hr]
  simp only [WriteQueue.release]
  omega

theorem Exact.releaseAll (es : List QueueElement) {q : WriteQueue} (h : q.Exact es) :
    (es.foldl WriteQueue.release q).Exact [] := by
  induction es generalizing q with
  | nil => exact h
  | cons e es ih => exact ih h.release

theorem Exact.push {e : QueueElement} (h : q.Exact out) (hf : q.budget.used + e.size < byteRange) :
    (q.push e).Exact out where
  used := by
    have := h.used
    simp only [WriteQueue.push, totalSize_append, totalSize]
    omega
  countable := hf

theorem releaseAll_eq : ∀ (es : List QueueElement) (q : WriteQueue),
    ∃ used, es.foldl WriteQueue.release q = { q with budget := { q.budget with used } }
  | [], q => ⟨q.budget.used, rfl⟩
  | e :: es, q => by
    obtain ⟨used, h⟩ := releaseAll_eq es (q.release e)
    exact ⟨used, h⟩

@[simp] theorem elements_releaseAll (es : List QueueElement) (q : WriteQueue) :
    (es.foldl WriteQueue.release q).elements = q.elements := by
  obtain ⟨used, h⟩ := releaseAll_eq es q
  rw [h]

@[simp] theorem closed_releaseAll (es : List QueueElement) (q : WriteQueue) :
    (es.foldl WriteQueue.release q).closed = q.closed := by
  obtain ⟨used, h⟩ := releaseAll_eq es q
  rw [h]

@[simp] theorem orphaned_releaseAll (es : List QueueElement) (q : WriteQueue) :
    (es.foldl WriteQueue.release q).orphaned = q.orphaned := by
  obtain ⟨used, h⟩ := releaseAll_eq es q
  rw [h]

@[simp] theorem capacity_budget_releaseAll (es : List QueueElement) (q : WriteQueue) :
    (es.foldl WriteQueue.release q).budget.capacity = q.budget.capacity := by
  obtain ⟨used, h⟩ := releaseAll_eq es q
  rw [h]

theorem acquire?_eq_some {b next : Budget} {bytes : Nat} (h : b.acquire? bytes = some next)
    (hf : b.capacity < byteRange - 1 ∨ b.used + bytes < byteRange) :
    next = { b with used := b.used + bytes } ∧ b.used + bytes ≤ b.capacity ∧
      b.used + bytes < byteRange := by
  unfold Budget.acquire? at h
  dsimp only at h
  split at h
  · cases h
  · have hs : b.used + bytes < byteRange := by rcases hf with hf | hf <;> omega
    have hm : min (b.used + bytes) (byteRange - 1) = b.used + bytes := by omega
    rw [hm] at h
    cases h
    exact ⟨rfl, by omega, hs⟩

theorem capacity_of_acquire? {b next : Budget} {bytes : Nat} (h : b.acquire? bytes = some next) :
    next.capacity = b.capacity := by
  unfold Budget.acquire? at h
  dsimp only at h
  split at h
  · cases h
  · cases h
    rfl

theorem acquire?_eq_none {b : Budget} {bytes : Nat} (h : b.acquire? bytes = none) :
    b.capacity < b.used + bytes := by
  unfold Budget.acquire? at h
  dsimp only at h
  split at h
  · omega
  · cases h

theorem release_acquired {b : Budget} {bytes : Nat} (h : b.used + bytes < byteRange) :
    Budget.release { b with used := b.used + bytes } bytes = b := by
  have hr : (Budget.release { b with used := b.used + bytes } bytes).used = b.used := by
    rw [Budget.used_release (by simp) h]
    simp
  unfold Budget.release at hr ⊢
  cases b
  simp only [Budget.mk.injEq, and_true] at hr ⊢
  exact hr

theorem tally_accountDrop (q : WriteQueue) (a : Account) (e : QueueElement) (r : DropReason) :
    (q.accountDrop a e r).tally = { a.tally with dropped := a.tally.dropped + 1 } := by
  unfold WriteQueue.accountDrop
  dsimp only
  split <;> rfl

variable {span : Span}

theorem capacity_budget_schedule (q : WriteQueue) (a : Account) (span : Span) :
    (q.schedule a span).1.budget.capacity = q.budget.capacity := by
  unfold schedule
  dsimp only
  split
  · rfl
  · rename_i next hacq
    have hc := capacity_of_acquire? hacq
    split
    · exact hc
    · split <;> exact hc

/-- **What an offer does**, with the reason. -/
theorem schedule_cases (a : Account) (hf : q.Counts span) :
    (q.schedule a span = (q.push (.of span), a.addScheduled 1, .queued) ∧
      q.budget.used + span.estimatedBytes ≤ q.budget.capacity ∧
      q.budget.used + span.estimatedBytes < byteRange ∧
      q.closed = false ∧ q.elements.length < q.capacity) ∨
    (q.schedule a span = (q, q.accountDrop a (.of span) .overWatermark, .droppedOverWatermark) ∧
      q.budget.capacity < q.budget.used + span.estimatedBytes) ∨
    (q.schedule a span = (q, a, .closed) ∧
      q.budget.used + span.estimatedBytes ≤ q.budget.capacity ∧ q.closed = true) ∨
    (q.schedule a span = (q, q.accountDrop a (.of span) .queueFull, .droppedQueueFull) ∧
      q.budget.used + span.estimatedBytes ≤ q.budget.capacity ∧
      q.closed = false ∧ q.capacity ≤ q.elements.length) := by
  unfold schedule
  dsimp only
  cases hacq : q.budget.acquire? (QueueElement.of span).size with
  | none => exact Or.inr (Or.inl ⟨rfl, acquire?_eq_none hacq⟩)
  | some next =>
    obtain ⟨rfl, hle, hlt⟩ := acquire?_eq_some hacq hf
    dsimp only
    rw [release_acquired hlt]
    split
    · rename_i hc
      exact Or.inr (Or.inr (Or.inl ⟨rfl, hle, hc⟩))
    · rename_i hc
      rw [Bool.not_eq_true] at hc
      split
      · rename_i hl
        exact Or.inl ⟨rfl, hle, hlt, hc, hl⟩
      · rename_i hl
        exact Or.inr (Or.inr (Or.inr ⟨rfl, hle, hc, Nat.le_of_not_lt hl⟩))

end WriteQueue

/-- The span `id` of a session that started at midnight, without parent or payload. -/
def Span.bare (id : String) : Span :=
  let start : SessionStart := ⟨"s", "chain", "Orders", none, none, none, none, none, simulationStart⟩
  .opened id "s" ⟨"step", "Step", "script", none, none⟩ none simulationStart
    (Session.start start .debug true).stamp

end SpanRelay

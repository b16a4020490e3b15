import Mathlib.Tactic.Ring
import SpanRelay.Proofs.Queue.Bytes
import SpanRelay.Proofs.Writer.Course
import SpanRelay.Proofs.Writer.Requests

/-! # The end of a run

A writer that was told to stop does stop: `cost` bounds the moves and passages of time before it, each
of them lowers the cost (`cost_lt_of_step`, `cost_lt_of_wake`), and `moveBound` is above the cost. So
`stopped_shutdown` holds of every desk whose requests ahead hold documents, and `ne_nil_ahead_course`
says that those of every course do. -/

namespace SpanRelay

namespace Delivery

@[simp] theorem attempts_foldl_addReason (reason : BulkItem → String) :
    ∀ (items : List BulkItem) (d : Delivery),
      (items.foldl (fun d i => d.addReason (reason i)) d).attempts = d.attempts
  | [], _ => rfl
  | i :: items, d => attempts_foldl_addReason reason items (d.addReason (reason i))

variable {maxRetries : Nat} {backoff : Backoff} {a : Account} {d d' : Delivery}

theorem attempts_of_retry (h : (d.retry maxRetries backoff a).next = some d') :
    d'.attempts = d.attempts + 1 ∧ d.attempts + 1 ≤ maxRetries := by
  unfold retry at h
  dsimp only at h
  split at h
  · cases h
  · cases h
    exact ⟨rfl, by omega⟩

theorem attempts_of_settle {answer : Answer}
    (h : (d.settle maxRetries backoff a answer).next = some d') :
    d'.attempts = d.attempts + 1 ∧ d.attempts + 1 ≤ maxRetries := by
  unfold settle at h
  split at h
  · split at h
    · unfold settleFailures at h
      dsimp only at h
      split at h
      · cases h
      · simpa using attempts_of_retry h
    · cases h
  · dsimp only at h
    split at h
    · exact attempts_of_retry (d := d.addReason _) h
    · cases h

end Delivery

namespace Desk

variable {σ : Type} {sink : Sink σ} {d d' : Desk σ} {wake : Nat}

/-- The moves and passages of time that a phase takes at most. -/
def phaseCost (retries now : Nat) : Phase → Nat
  | .ready | .stopped => 0
  | .resting wake delivery => 4 * (retries - delivery.attempts) + if wake ≤ now then 3 else 4
  | .waiting wake delivery => 4 * (retries - delivery.attempts) + if wake ≤ now then 1 else 2

/-- The moves that closing and stopping take. -/
def endCost (w : Writer) : Nat :=
  if w.phase = .stopped then 0 else if w.closing then 1 else 2

/-- The moves and passages of time at most until the writer stops, if nothing more is offered. -/
def cost (d : Desk σ) : Nat :=
  let retries := d.writer.settings.maxRetries
  phaseCost retries d.now d.writer.phase + (4 * retries + 5) * d.writer.ahead.length +
    (4 * retries + 6) * d.queue.elements.length + endCost d.writer

theorem phaseCost_ready (retries now : Nat) : phaseCost retries now .ready = 0 := rfl

theorem phaseCost_resting_le (retries now wake : Nat) (delivery : Delivery) :
    phaseCost retries now (.resting wake delivery) ≤ 4 * (retries - delivery.attempts) + 4 := by
  simp only [phaseCost]; split <;> omega

theorem phaseCost_waiting_le (retries now wake : Nat) (delivery : Delivery) :
    phaseCost retries now (.waiting wake delivery) ≤ 4 * (retries - delivery.attempts) + 2 := by
  simp only [phaseCost]; split <;> omega

theorem phaseCost_le (retries now : Nat) (p : Phase) : phaseCost retries now p ≤ 4 * retries + 4 := by
  cases p with
  | ready | stopped => simp [phaseCost]
  | resting wake delivery => have := phaseCost_resting_le retries now wake delivery; omega
  | waiting wake delivery => have := phaseCost_waiting_le retries now wake delivery; omega

theorem endCost_congr {w v : Writer} (hp : w.phase = .stopped ↔ v.phase = .stopped)
    (hc : w.closing = v.closing) : endCost w = endCost v := by
  unfold endCost
  rw [hc]
  by_cases h : v.phase = .stopped
  · rw [if_pos h, if_pos (hp.2 h)]
  · rw [if_neg h, if_neg (fun h' => h (hp.1 h'))]

theorem length_latest_le (es : List QueueElement) : (latest es).length ≤ es.length := by
  have := length_latest es; omega

theorem length_le_length_flatten : ∀ {bs : List (List Document)}, (∀ b ∈ bs, b ≠ []) →
    bs.length ≤ bs.flatten.length
  | [], _ => Nat.zero_le _
  | b :: bs, h => by
    have ih : bs.length ≤ bs.flatten.length :=
      length_le_length_flatten fun c hc => h c (by simp [hc])
    have hb := List.length_pos_iff.2 (h b (by simp))
    rw [List.flatten_cons, List.length_append, List.length_cons]
    omega

theorem length_batches_latest_le (l : BatchLimits) (es : List QueueElement) :
    (batches l (latest es)).length ≤ es.length := by
  have h1 := length_le_length_flatten fun b (hb : b ∈ batches l (latest es)) => ne_nil_of_mem_batches hb
  have h2 := length_flatten_batches l (latest es)
  have h3 := length_latest_le es
  omega

theorem phaseCost_hear (hw : wake ≤ d.now) (delivery : Delivery) :
    phaseCost d.writer.settings.maxRetries d.now
        (Settlement.phase (d.settlement sink delivery) d.now) <
      phaseCost d.writer.settings.maxRetries d.now (.waiting wake delivery) := by
  have hlow : phaseCost d.writer.settings.maxRetries d.now (.waiting wake delivery) =
      4 * (d.writer.settings.maxRetries - delivery.attempts) + 1 := by
    simp [phaseCost, hw]
  rw [hlow]
  unfold Settlement.phase
  split
  · rename_i next hnext
    obtain ⟨hatt, hle⟩ := Delivery.attempts_of_settle hnext
    have := phaseCost_resting_le d.writer.settings.maxRetries d.now
      (d.now + (d.settlement sink delivery).backoff.current) next
    omega
  · exact Nat.succ_pos _

theorem cost_lt_of_step (h : Step sink d d') : d'.cost < d.cost := by
  cases h with
  | @send wake delivery hp hw =>
    have hlow : phaseCost d.writer.settings.maxRetries d.now d.writer.phase =
        4 * (d.writer.settings.maxRetries - delivery.attempts) + 3 := by
      simp [phaseCost, hp, hw]
    have hend : endCost (d.send sink delivery).writer = endCost d.writer :=
      endCost_congr (by simp [send_eq, hp]) rfl
    unfold cost
    rw [hend, send_eq]
    dsimp only
    have hnew := phaseCost_waiting_le d.writer.settings.maxRetries d.now
      (d.now + (sink.receive d.now d.writer.settings.index delivery.documents d.store).2) delivery
    omega
  | @hear wake delivery hp hw =>
    have hlt : phaseCost d.writer.settings.maxRetries d.now
        (Settlement.phase (d.settlement sink delivery) d.now) < _ := phaseCost_hear hw delivery
    rw [← hp] at hlt
    have hend : endCost (d.hear sink delivery).writer = endCost d.writer := by
      refine endCost_congr ?_ (by rw [hear_eq])
      rw [hear_eq, hp]
      dsimp only [Settlement.phase]
      split <;> simp
    unfold cost
    rw [hend, hear_eq]
    dsimp only
    omega
  | @begin batch ahead hp ha =>
    have hend : endCost ({ d with writer := { d.writer with ahead } }.rest (.of batch)).writer =
        endCost d.writer := endCost_congr (by simp [rest, hp]) rfl
    unfold cost
    rw [hend, hp, ha]
    have hnew := phaseCost_le d.writer.settings.maxRetries d.now
      (.resting (d.now + d.writer.backoff.current) (.of batch))
    simp only [rest, phaseCost_ready, List.length_cons, Nat.mul_succ] at hnew ⊢
    omega
  | take n hp ha hn =>
    have hlen := length_batches_latest_le d.writer.settings.limits (d.queue.drain n).1
    have hpos := List.length_pos_iff.2 hn
    have hsplit := congrArg List.length (List.take_append_drop n d.queue.elements)
    rw [List.length_append] at hsplit
    have hend : endCost (d.process (d.queue.drain n).1 (d.queue.drain n).2).writer =
        endCost d.writer := rfl
    unfold cost
    rw [hend, ha, ← hsplit]
    simp only [process, enqueueSpans, WriteQueue.elements_releaseAll, WriteQueue.drain, hp,
      phaseCost_ready] at hlen ⊢
    have hmul := Nat.mul_le_mul_left (4 * d.writer.settings.maxRetries + 5) hlen
    simp only [List.length_nil, Nat.mul_zero, Nat.mul_add, Nat.add_mul] at hmul ⊢
    omega
  | close hp ha hc =>
    simp only [cost, Desk.close, WriteQueue.close, endCost, hp, hc]
    simp
  | stop hp ha hc hn =>
    simp only [cost, endCost, hp, hc, phaseCost]
    simp

theorem cost_lt_of_wake (h : d.step? sink = none) (hw : d.wake? = some wake) :
    cost { d with now := wake } < d.cost := by
  have hlt := lt_wake_of_step?_eq_none h hw
  unfold wake? at hw
  unfold cost
  dsimp only
  split at hw
  · rename_i hp
    cases hw
    rw [hp]
    simp only [phaseCost, Nat.le_refl, if_true, if_neg (Nat.not_le.2 hlt)]
    omega
  · rename_i hp
    cases hw
    rw [hp]
    simp only [phaseCost, Nat.le_refl, if_true, if_neg (Nat.not_le.2 hlt)]
    omega
  · cases hw
  · cases hw

theorem stopping_step (h : Step sink d d') : d'.writer.stopping = d.writer.stopping := by
  cases h with
  | send | begin | take | close | stop => rfl
  | hear => rw [hear_eq]

theorem stopped_of_idle (hs : d.writer.stopping = true) (h : d.step? sink = none)
    (hw : d.wake? = none) : d.writer.phase = .stopped := by
  unfold wake? at hw
  unfold step? at h
  split at hw
  · cases hw
  · cases hw
  · rename_i hp
    rw [hp] at h
    dsimp only at h
    split at h
    · cases h
    · unfold next? at h
      dsimp only at h
      split at h
      · split at h <;> cases h
      · simp [hs] at h
  · rename_i hp
    exact hp

theorem stopped_moves (sink : Sink σ) (fuel : Nat) (d : Desk σ) (hc : d.cost ≤ fuel)
    (hs : d.writer.stopping = true) : (d.moves sink none fuel).writer.phase = .stopped := by
  induction fuel generalizing d with
  | zero =>
    -- a desk without cost is at the end of its run
    simp only [cost, endCost] at hc
    by_contra hp
    rw [moves] at hp
    rw [if_neg hp] at hc
    split at hc <;> omega
  | succ fuel ih =>
    unfold moves
    cases h : d.step? sink with
    | some d' =>
      have hstep := step_of_step? h
      have := cost_lt_of_step hstep
      exact ih d' (by omega) ((stopping_step hstep).trans hs)
    | none =>
      dsimp only
      cases hw : d.wake? with
      | none => exact stopped_of_idle hs h hw
      | some wake =>
        have := cost_lt_of_wake h hw
        exact ih { d with now := wake } (by omega) hs

theorem cost_le_moveBound (h : ∀ b ∈ d.writer.ahead, b ≠ []) : d.cost ≤ d.moveBound := by
  have hp := phaseCost_le d.writer.settings.maxRetries d.now d.writer.phase
  have hl := length_le_length_flatten h
  have he : endCost d.writer ≤ 2 := by
    unfold endCost
    split
    · omega
    · split <;> omega
  unfold cost moveBound
  dsimp only
  have hmul := Nat.mul_le_mul_left (4 * d.writer.settings.maxRetries + 5) hl
  generalize d.writer.settings.maxRetries = r at hp hmul ⊢
  generalize d.queue.elements.length = q
  generalize d.writer.ahead.flatten.length = f at hmul ⊢
  have hsum : 6 * (r + 2) * (q + f + 1 + 1) =
      6 * (r * q) + 6 * (r * f) + 12 * r + 12 * q + 12 * f + 24 := by
    ring
  have hf : (4 * r + 5) * f = 4 * (r * f) + 5 * f := by ring
  have hq : (4 * r + 6) * q = 4 * (r * q) + 6 * q := by ring
  rw [hsum, hq]
  rw [hf] at hmul
  omega

theorem ne_nil_ahead_step (h : Step sink d d') (hd : ∀ b ∈ d.writer.ahead, b ≠ []) :
    ∀ b ∈ d'.writer.ahead, b ≠ [] := by
  cases h with
  | send | close | stop => exact hd
  | hear => rw [hear_eq]; exact hd
  | begin hp ha =>
    rw [ha] at hd
    exact fun b hb => hd b (List.mem_cons_of_mem _ hb)
  | take n hp ha hn => exact fun b hb => ne_nil_of_mem_batches hb

theorem ne_nil_ahead_course (os : List Occurrence) (h : ∀ b ∈ d.writer.ahead, b ≠ []) :
    ∀ b ∈ (d.course sink os).writer.ahead, b ≠ [] := by
  induction os generalizing d with
  | nil => exact h
  | cons o os ih =>
    refine ih (d := d.occur sink o) ?_
    cases o with
    | move =>
      unfold occur
      cases hs : d.step? sink with
      | none => exact h
      | some d' => exact ne_nil_ahead_step (step_of_step? hs) h
    | offer | wait | stop | orphan => exact h

/-- **A writer that is shut down stops.** -/
theorem stopped_shutdown (h : ∀ b ∈ d.writer.ahead, b ≠ []) :
    (d.shutdown sink).writer.phase = .stopped :=
  stopped_moves sink _ _ (cost_le_moveBound h) rfl

end Desk

end SpanRelay

import SpanRelay.Proofs.Writer.Fates
import SpanRelay.Proofs.Writer.Prospect
import SpanRelay.Proofs.Writer.Shutdown

/-! # Flushes

A desk is `Alone` with its requests while nothing is queued and nobody stops its writer: it can only
send, hear and begin. `Desk.hearings` are the answers that it hears along a run, and what they count
and cover adds up over the moves (`accounts_moves`). Every run ends with nothing ahead
(`Alone.ready_moves`), so `flush_accounts` says what a flush counts, and when it counts each span
once. -/

namespace SpanRelay

/-- The answers of the store have one item for each document. -/
def Sink.Aligned {σ : Type} (sink : Sink σ) : Prop :=
  ∀ index ds store, (sink.answer index ds store).2.2.Aligned ds

/-- What some hearings count, in their order. -/
def ledger (hearings : List Hearing) : List (Document × Fate) := hearings.flatMap Hearing.fates

namespace Desk

variable {σ : Type} {sink : Sink σ} {d d' : Desk σ}

/-- What is heard of the answer to a delivery. -/
def answered (sink : Sink σ) (d : Desk σ) (delivery : Delivery) : Hearing :=
  let answered := sink.answer d.writer.settings.index delivery.documents d.store
  delivery.hearing d.writer.settings.maxRetries d.writer.backoff
    (answered.2.1.foldl Account.note d.account) answered.2.2

/-- The answer that the next move hears. -/
def hearing? (sink : Sink σ) (d : Desk σ) : Option Hearing :=
  match d.writer.phase with
  | .waiting wake delivery =>
    if wake ≤ d.now then some (d.answered sink delivery) else none
  | .ready | .resting _ _ | .stopped => none

/-- The answers that are heard in at most `fuel` moves. -/
def hearings (sink : Sink σ) (limit : Option Nat) : Nat → Desk σ → List Hearing
  | 0, _ => []
  | fuel + 1, d =>
    match d.step? sink with
    | some d' => (d.hearing? sink).toList ++ hearings sink limit fuel d'
    | none =>
      match d.wake? with
      | none => []
      | some wake =>
        if limit.all (wake ≤ ·) then hearings sink limit fuel { d with now := wake } else []

/-- The answers that are heard along a run. -/
def heard (sink : Sink σ) (limit : Option Nat) (d : Desk σ) : List Hearing :=
  d.hearings sink limit d.moveBound

/-- Nothing is queued, and nobody stops the writer. -/
structure Alone (d : Desk σ) : Prop where
  live : d.Live
  queue : d.queue.elements = []

theorem Alone.step_cases (ha : d.Alone) (h : Step sink d d') :
    (∃ wake delivery, d.writer.phase = .resting wake delivery ∧ d' = d.send sink delivery) ∨
    (∃ wake delivery, d.writer.phase = .waiting wake delivery ∧ wake ≤ d.now ∧
      d' = d.hear sink delivery) ∨
    (∃ batch ahead, d.writer.phase = .ready ∧ d.writer.ahead = batch :: ahead ∧
      d' = { d with writer := { d.writer with ahead } }.rest (.of batch)) := by
  cases h with
  | send hp hw => exact Or.inl ⟨_, _, hp, rfl⟩
  | hear hp hw => exact Or.inr (Or.inl ⟨_, _, hp, hw, rfl⟩)
  | begin hp hb => exact Or.inr (Or.inr ⟨_, _, hp, hb, rfl⟩)
  | take n hp hb hn => exact absurd (by rw [ha.queue, List.take_nil]) hn
  | close hp hb hc hs =>
    rcases hs with hs | hs
    · rw [ha.live.stopping] at hs
      cases hs
    · simp [WriteQueue.isExhausted, ha.live.closed, ha.live.orphaned] at hs
  | stop hp hb hc hn =>
    rw [ha.live.closing] at hc
    cases hc

theorem Alone.step (ha : d.Alone) (h : Step sink d d') : d'.Alone := by
  refine ⟨live_step h ha.live, ?_⟩
  rcases ha.step_cases h with ⟨_, _, -, rfl⟩ | ⟨_, _, -, -, rfl⟩ | ⟨_, _, -, -, rfl⟩
  · exact ha.queue
  · rw [hear_eq]
    exact ha.queue
  · exact ha.queue

theorem Alone.wait (ha : d.Alone) (now : Nat) : Alone { d with now } :=
  ⟨⟨ha.live.closed, ha.live.orphaned, ha.live.closing, ha.live.stopping, ha.live.phase⟩, ha.queue⟩

theorem Alone.ahead (ha : d.Alone) (requests : List (List Document)) :
    Alone { d with writer := { d.writer with ahead := requests } } :=
  ⟨⟨ha.live.closed, ha.live.orphaned, ha.live.closing, ha.live.stopping, ha.live.phase⟩, ha.queue⟩

/-! ### What a run covers -/

/-- On the way from `d` to `d'`, some answers count what they cover of the documents. -/
structure Accounts (hs : List Hearing) (d d' : Desk σ) : Prop where
  covers : Covers d.underway ((ledger hs).map Prod.fst) d'.underway (∀ h ∈ hs, h.Faithful)
  tally : d'.account.tally = d.account.tally.count ((ledger hs).map Prod.snd)

theorem Accounts.of_silent (hu : d'.underway = d.underway) (ha : d'.account = d.account) :
    Accounts [] d d' := by
  refine ⟨?_, by rw [ha]; exact (Tally.count_nil _).symm⟩
  rw [hu]
  simpa [ledger] using Covers.refl d.underway

theorem Accounts.trans {hs hs' : List Hearing} {d'' : Desk σ} (h : Accounts hs d d')
    (h' : Accounts hs' d' d'') (hd : (d.underway.map Document.id).Nodup) :
    Accounts (hs ++ hs') d d'' := by
  have hl : ledger (hs ++ hs') = ledger hs ++ ledger hs' := List.flatMap_append
  constructor
  · rw [hl, List.map_append]
    have hboth := h.covers.trans h'.covers (List.Nodup.of_map _ hd)
    simpa only [List.forall_mem_append] using hboth
  · rw [hl, List.map_append, Tally.count_append, ← h.tally, h'.tally]

theorem accounts_hear (hs : sink.Aligned) {wake : Nat} {delivery : Delivery}
    (hp : d.writer.phase = .waiting wake delivery) (hd : (d.underway.map Document.id).Nodup) :
    Accounts [d.answered sink delivery] d (d.hear sink delivery) := by
  have hal := hs d.writer.settings.index delivery.documents d.store
  have hunder := underway_of_waiting hp
  have hl : ledger [d.answered sink delivery] = (d.answered sink delivery).fates := by simp [ledger]
  constructor
  · rw [hl, underway_hear, hunder]
    rw [hunder] at hd
    have hids := hd
    rw [List.map_append] at hids
    have hc : Covers delivery.documents ((d.answered sink delivery).fates.map Prod.fst)
        (d.settlement sink delivery).left (d.answered sink delivery).Faithful :=
      Delivery.covers_hearing _ _ _ hids.of_append_left hal
    simpa using hc.append d.writer.ahead.flatten (List.Nodup.of_map _ hd)
  · have ht : (d.settlement sink delivery).account.tally = _ := Delivery.tally_settle _ _ _ hal
    rw [tally_foldl_note] at ht
    rw [hl, hear_eq]
    exact ht

theorem accounts_step (hs : sink.Aligned) (ha : d.Alone)
    (hd : (d.underway.map Document.id).Nodup) (h : d.step? sink = some d') :
    Accounts (d.hearing? sink).toList d d' := by
  rcases ha.step_cases (step_of_step? h) with
    ⟨_, _, hp, rfl⟩ | ⟨_, _, hp, hw, rfl⟩ | ⟨_, _, hp, hb, rfl⟩
  · rw [hearing?, hp]
    exact .of_silent (underway_send hp) (by rw [send_eq])
  · rw [hearing?, hp]
    dsimp only
    rw [if_pos hw]
    exact accounts_hear hs hp hd
  · rw [hearing?, hp]
    exact .of_silent (underway_begin hp hb) rfl

/-- **A run** counts what its answers cover. -/
theorem accounts_moves (hs : sink.Aligned) (limit : Option Nat) (fuel : Nat) (ha : d.Alone)
    (hd : (d.underway.map Document.id).Nodup) :
    Accounts (d.hearings sink limit fuel) d (d.moves sink limit fuel) := by
  induction fuel generalizing d with
  | zero => exact .of_silent rfl rfl
  | succ fuel ih =>
    unfold hearings moves
    cases h : d.step? sink with
    | some d' =>
      have hstep := accounts_step hs ha hd h
      have hd' := hd.sublist (hstep.covers.sublist.map Document.id)
      exact hstep.trans (ih (ha.step (step_of_step? h)) hd') hd
    | none =>
      dsimp only
      cases d.wake? with
      | none => exact .of_silent rfl rfl
      | some wake =>
        dsimp only
        split
        · have hrest := ih (d := { d with now := wake }) (ha.wait wake) hd
          exact ⟨hrest.covers, hrest.tally⟩
        · exact .of_silent rfl rfl

/-! ### The end of a run -/

theorem Alone.ready_of_idle (ha : d.Alone) (h : d.step? sink = none) (hw : d.wake? = none) :
    d.writer.phase = .ready ∧ d.writer.ahead = [] := by
  unfold wake? at hw
  unfold step? at h
  split at hw
  · cases hw
  · cases hw
  · rename_i hp
    rw [hp] at h
    dsimp only at h
    split at h
    · cases h
    · rename_i hb
      exact ⟨hp, hb⟩
  · rename_i hp
    exact absurd hp ha.live.phase

/-- **Every run ends.** -/
theorem Alone.ready_moves (fuel : Nat) (hc : d.cost ≤ fuel) (ha : d.Alone) :
    (d.moves sink none fuel).writer.phase = .ready ∧ (d.moves sink none fuel).writer.ahead = [] := by
  induction fuel generalizing d with
  | zero =>
    -- a live desk has a cost
    have hend : 1 ≤ endCost d.writer := by
      unfold endCost
      rw [if_neg ha.live.phase]
      split <;> omega
    simp only [cost] at hc
    omega
  | succ fuel ih =>
    unfold moves
    cases h : d.step? sink with
    | some d' =>
      have hstep := step_of_step? h
      have := cost_lt_of_step hstep
      exact ih (by omega) (ha.step hstep)
    | none =>
      dsimp only
      cases hw : d.wake? with
      | none => exact ha.ready_of_idle h hw
      | some wake =>
        have := cost_lt_of_wake h hw
        exact ih (d := { d with now := wake }) (by omega) (ha.wait wake)

theorem Alone.ready_run (ha : d.Alone) (hb : ∀ b ∈ d.writer.ahead, b ≠ []) :
    (d.run sink none).writer.phase = .ready ∧ (d.run sink none).writer.ahead = [] :=
  ha.ready_moves _ (cost_le_moveBound hb)

/-! ### Flushes -/

/-- **A flush**: it ends, the counters grow by what its answers count, and each span is counted once
exactly if all of these answers are faithful. -/
theorem flush_accounts (hs : sink.Aligned) (ha : d.Alone) (hp : d.writer.phase = .ready)
    {spans : List Span} (hspans : (spans.map Span.id).Nodup) :
    let flushing := d.enqueueSpans spans
    let flushed := flushing.run sink none
    let heard := flushing.heard sink none
    flushed.writer.phase = .ready ∧ flushed.writer.ahead = [] ∧
    flushed.account.tally = d.account.tally.count ((ledger heard).map Prod.snd) ∧
    ((∀ span ∈ spans, ((ledger heard).map fun p => p.1.id).count span.id = 1) ↔
      ∀ h ∈ heard, h.Faithful) := by
  intro flushing flushed heard
  have ha' : flushing.Alone := ha.ahead _
  have hunder : flushing.underway = (batches d.writer.settings.limits spans).flatten := by
    unfold underway
    rw [show flushing.writer.phase = .ready from hp]
    rfl
  have hperm := flatten_batches d.writer.settings.limits spans
  have hnodup : (flushing.underway.map Document.id).Nodup := by
    rw [hunder]
    exact nodup_ids_batches _ hspans
  obtain ⟨hready, hahead⟩ : flushed.writer.phase = .ready ∧ flushed.writer.ahead = [] :=
    ha'.ready_run fun b hb => ne_nil_of_mem_batches hb
  have hacc : Accounts heard flushing flushed := accounts_moves hs none _ ha' hnodup
  refine ⟨hready, hahead, hacc.tally, ?_⟩
  have hcovers := hacc.covers
  rw [underway_of_ready hready hahead] at hcovers
  rw [← hcovers.count_iff hnodup, hunder, List.map_map]
  constructor
  · intro hone doc hdoc
    obtain ⟨span, hspan, rfl⟩ := List.mem_map.1 (hperm.subset hdoc)
    exact hone span hspan
  · intro hone span hspan
    exact hone (.ofSpan span) (hperm.symm.subset (List.mem_map_of_mem hspan))

end Desk

end SpanRelay

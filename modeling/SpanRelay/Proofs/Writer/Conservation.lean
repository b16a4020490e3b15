import SpanRelay.Proofs.Queue.Bytes
import SpanRelay.Proofs.Writer.Course
import SpanRelay.Proofs.Writer.Latest
import SpanRelay.Proofs.Writer.Requests
import SpanRelay.Proofs.Writer.Settlement
import SpanRelay.Proofs.Writer.Shutdown
import SpanRelay.Store.Memory

/-! # No span disappears

At every moment the spans that the queue accepted are those flushed, lost, skipped or superseded,
and those still on their way: in the queue, in a request ahead or in the present delivery. That is
`Balanced`, which every occurrence keeps (`balanced_occur`), whatever an `Itemwise` store answers.
At the end nothing is on its way. -/

namespace SpanRelay

/-- A store whose answers are itemwise, and which notes nothing but warnings by itself. -/
structure Sink.Itemwise {σ : Type} (sink : Sink σ) : Prop where
  answer : ∀ index documents store, (sink.answer index documents store).2.2.Itemwise documents
  events : ∀ index documents store, ∀ e ∈ (sink.answer index documents store).2.1,
    e.severity = .warning

namespace Desk

variable {σ : Type} {sink : Sink σ} {d d' : Desk σ} {n : Nat}

/-- The elements that left the queue between two moments. -/
def taken (d d' : Desk σ) : List QueueElement :=
  d.queue.elements.take (d.queue.elements.length - d'.queue.elements.length)

/-- How many elements are superseded in the batches taken out of the queue during some
occurrences. -/
def supersededDuring (sink : Sink σ) : Desk σ → List Occurrence → Nat
  | _, [] => 0
  | d, o :: os =>
    superseded (d.taken (d.occur sink o)) + supersededDuring sink (d.occur sink o) os

/-- The bytes of every span offered can be counted together with those in use. -/
def Countable (sink : Sink σ) : Desk σ → List Occurrence → Prop
  | _, [] => True
  | d, o :: os =>
    (∀ span, o = .offer span → d.queue.queuedBytes + span.estimatedBytes < byteRange) ∧
      Countable sink (d.occur sink o) os

/-- What is true at every moment, when `n` elements were superseded so far. -/
structure Balanced (d : Desk σ) (n : Nat) : Prop where
  exact : d.queue.Exact []
  scheduled : d.account.tally.scheduled = d.account.tally.flushed + d.account.tally.lost +
    d.account.tally.skipped + n + (d.underway.length + d.queue.elements.length)
  reported : reportedLost d.account.events = d.account.tally.lost
  nodup : (d.underway.map Document.id).Nodup
  closing : d.writer.closing = true → d.queue.closed = true
  stopped : d.writer.phase = .stopped → d.queue.closed = true ∧ d.queue.elements = [] ∧ d.underway = []

theorem balanced_of (capacity maxBytes : Nat) (settings : WriterSettings) (backoff : Backoff)
    (store : σ) : Balanced (.of (.of capacity maxBytes) (.of settings backoff) store) 0 where
  exact := .of capacity maxBytes
  scheduled := rfl
  reported := rfl
  nodup := List.nodup_nil
  closing := nofun
  stopped := nofun

theorem taken_eq_nil (h : d.queue.elements.length ≤ d'.queue.elements.length) : d.taken d' = [] := by
  unfold taken
  rw [Nat.sub_eq_zero_of_le h, List.take_zero]

theorem taken_take (d : Desk σ) (m : Nat) :
    d.taken (d.process (d.queue.drain m).1 (d.queue.drain m).2) = d.queue.elements.take m := by
  have hqueue : (d.process (d.queue.drain m).1 (d.queue.drain m).2).queue.elements =
      d.queue.elements.drop m := WriteQueue.elements_releaseAll _ _
  rw [taken, hqueue, List.length_drop]
  rcases Nat.le_total m d.queue.elements.length with hle | hle
  · rw [Nat.sub_sub_self hle]
  · rw [Nat.sub_eq_zero_of_le hle, Nat.sub_zero, List.take_length, List.take_of_length_le hle]

/-! ### Offers -/

theorem reportedLost_accountDrop (q : WriteQueue) (a : Account) (e : QueueElement) (r : DropReason) :
    reportedLost (q.accountDrop a e r).events = reportedLost a.events := by
  unfold WriteQueue.accountDrop
  dsimp only
  split
  · simp [Account.note, Account.addDropped, reportedLost_append, reportedLost, Event.severity]
  · rfl

theorem schedule_of_refused {span : Span} (hf : d.queue.Counts span)
    (h : (d.schedule span).2 ≠ .queued) :
    ∃ account, (d.schedule span).1 = { d with account } ∧
      reportedLost account.events = reportedLost d.account.events ∧
      ∃ dropped, account.tally = { d.account.tally with dropped } := by
  unfold schedule at h ⊢
  rcases WriteQueue.schedule_cases d.account hf with ⟨hs, -⟩ | ⟨hs, -⟩ | ⟨hs, -⟩ | ⟨hs, -⟩
  · rw [hs] at h
    exact absurd rfl h
  · rw [hs]
    exact ⟨_, rfl, reportedLost_accountDrop _ _ _ _, _, WriteQueue.tally_accountDrop _ _ _ _⟩
  · rw [hs]
    exact ⟨_, rfl, rfl, _, rfl⟩
  · rw [hs]
    exact ⟨_, rfl, reportedLost_accountDrop _ _ _ _, _, WriteQueue.tally_accountDrop _ _ _ _⟩

theorem schedule_of_queued {span : Span} (hf : d.queue.Counts span)
    (h : (d.schedule span).2 = .queued) :
    (d.schedule span).1 =
        { d with queue := d.queue.push (.of span), account := d.account.addScheduled 1 } ∧
      d.queue.closed = false ∧ d.queue.budget.used + span.estimatedBytes < byteRange := by
  unfold schedule at h ⊢
  rcases WriteQueue.schedule_cases d.account hf with ⟨hs, -, hlt, hc, -⟩ | ⟨hs, -⟩ | ⟨hs, -⟩ | ⟨hs, -⟩
  · rw [hs]
    exact ⟨rfl, hc, hlt⟩
  all_goals
    rw [hs] at h
    cases h

theorem balanced_schedule {span : Span} (h : d.Balanced n) (hf : d.queue.Counts span) :
    (d.schedule span).1.Balanced n := by
  by_cases hq : (d.schedule span).2 = .queued
  · obtain ⟨hs, hc, hlt⟩ := schedule_of_queued hf hq
    rw [hs]
    refine ⟨h.exact.push hlt, ?_, h.reported, h.nodup, fun hcl => ?_, fun hp => ?_⟩
    · have := h.scheduled
      simp only [Account.addScheduled, WriteQueue.push, List.length_append, List.length_singleton,
        underway] at this ⊢
      omega
    · have := h.closing hcl
      rw [hc] at this
      cases this
    · have := (h.stopped hp).1
      rw [hc] at this
      cases this
  · obtain ⟨account, hs, hr, dropped, ht⟩ := schedule_of_refused hf hq
    rw [hs]
    refine ⟨h.exact, ?_, ?_, h.nodup, h.closing, h.stopped⟩
    · have := h.scheduled
      simp only [ht, underway] at this ⊢
      exact this
    · simp only [hr, ht]
      exact h.reported

/-! ### Moves of the writer -/

theorem settlement_dealt (hs : sink.Itemwise) {delivery : Delivery}
    (hd : (delivery.documents.map Document.id).Nodup) :
    ∃ m, d.account.Dealt (d.settlement sink delivery).account m ∧
      m + (d.settlement sink delivery).left.length = delivery.documents.length := by
  have hw := Account.Dealt.warnings _ d.account
    (hs.events d.writer.settings.index delivery.documents d.store)
  obtain ⟨m, hm, hsum⟩ := Delivery.settle_dealt d.writer.settings.maxRetries d.writer.backoff
    ((sink.answer d.writer.settings.index delivery.documents d.store).2.1.foldl Account.note d.account)
    hd (hs.answer d.writer.settings.index delivery.documents d.store)
  exact ⟨0 + m, hw.trans hm, by rw [Nat.zero_add]; exact hsum⟩

theorem balanced_hear (hs : sink.Itemwise) {wake : Nat} {delivery : Delivery} (h : d.Balanced n)
    (hp : d.writer.phase = .waiting wake delivery) : (d.hear sink delivery).Balanced n := by
  have hunder := underway_of_waiting hp
  have hnodup := h.nodup
  rw [hunder, List.map_append] at hnodup
  have hdel := (List.nodup_append.1 hnodup).1
  obtain ⟨m, hm, hsum⟩ := settlement_dealt (d := d) hs hdel
  have hsub := Delivery.settle_left_sublist d.writer.settings.maxRetries d.writer.backoff
    ((sink.answer d.writer.settings.index delivery.documents d.store).2.1.foldl Account.note d.account)
    delivery (sink.answer d.writer.settings.index delivery.documents d.store).2.2
  have hunder' : (d.hear sink delivery).underway =
      (d.settlement sink delivery).left ++ d.writer.ahead.flatten := underway_hear delivery
  refine ⟨?_, ?_, ?_, ?_, ?_, ?_⟩
  · rw [hear_eq]; exact h.exact
  · have hsch := h.scheduled
    rw [hunder, List.length_append] at hsch
    rw [hunder', List.length_append, hear_eq]
    dsimp only
    rw [hm.scheduled, hm.skipped, hsch]
    have := hm.settled
    omega
  · rw [hear_eq]
    dsimp only
    have := hm.reported
    rw [h.reported] at this
    omega
  · rw [hunder', List.map_append]
    exact hnodup.sublist ((hsub.map _).append_right _)
  · rw [hear_eq]; exact h.closing
  · exact fun hst => absurd hst (phase_hear_ne_stopped delivery)

theorem balanced_take {m : Nat} (h : d.Balanced n) (hp : d.writer.phase = .ready)
    (ha : d.writer.ahead = []) :
    (d.process (d.queue.drain m).1 (d.queue.drain m).2).Balanced
      (n + superseded (d.taken (d.process (d.queue.drain m).1 (d.queue.drain m).2))) := by
  have hqueue : (d.process (d.queue.drain m).1 (d.queue.drain m).2).queue.elements =
      d.queue.elements.drop m := WriteQueue.elements_releaseAll _ _
  have hunder := underway_of_ready hp ha
  have hunder' := underway_take m hp
  have hexact := h.exact.drain m
  rw [List.append_nil] at hexact
  refine ⟨hexact.releaseAll, ?_, h.reported, ?_, fun hc => ?_, fun hst => ?_⟩
  · have hsch := h.scheduled
    have hlen := length_latest (d.queue.elements.take m)
    have hsplit := congrArg List.length (List.take_append_drop m d.queue.elements)
    rw [List.length_append] at hsplit
    rw [hunder, List.length_nil] at hsch
    rw [taken_take, hunder', hqueue, length_flatten_batches]
    simp only [process, enqueueSpans]
    omega
  · rw [hunder']
    exact nodup_ids_batches _ (nodup_latest _)
  · simp only [process, enqueueSpans, WriteQueue.closed_releaseAll] at hc ⊢
    exact h.closing hc
  · simp only [process, enqueueSpans] at hst
    rw [hp] at hst
    cases hst

theorem balanced_step (hs : sink.Itemwise) (h : Step sink d d') (hb : d.Balanced n)
    (hl : 0 < d.writer.settings.drainLength) :
    d'.Balanced (n + superseded (d.taken d')) := by
  have same : d'.queue.elements = d.queue.elements → d'.Balanced n →
      d'.Balanced (n + superseded (d.taken d')) := by
    intro hq hb'
    rw [taken_eq_nil (le_of_eq (congrArg List.length hq.symm))]
    exact hb'
  cases h with
  | @send wake delivery hp hw =>
    refine same rfl ⟨hb.exact, ?_, hb.reported, ?_, hb.closing, nofun⟩
    · have := hb.scheduled
      rw [underway, hp] at this
      exact this
    · have := hb.nodup
      rw [underway, hp] at this
      exact this
  | hear hp hw => exact same (by rw [hear_eq]) (balanced_hear hs hb hp)
  | @begin batch ahead hp ha =>
    have hunder : d.underway = batch ++ ahead.flatten := by
      rw [underway, hp, ha]; rfl
    refine same rfl ⟨hb.exact, ?_, hb.reported, ?_, hb.closing, fun hst => ?_⟩
    · have := hb.scheduled
      rw [hunder] at this
      exact this
    · have := hb.nodup
      rw [hunder] at this
      exact this
    · cases hst
  | take m hp ha hn => exact balanced_take hb hp ha
  | close hp ha hc =>
    refine same rfl ⟨⟨hb.exact.used, hb.exact.countable⟩, hb.scheduled, hb.reported, hb.nodup,
      fun _ => rfl, fun hst => ?_⟩
    simp only [close] at hst
    rw [hp] at hst
    cases hst
  | stop hp ha hc hn =>
    have hnil := elements_of_take_eq_nil hl hn
    have hunder := underway_of_ready hp ha
    have hunder' := underway_stop ha
    refine same rfl ⟨hb.exact, ?_, hb.reported, ?_, hb.closing, fun _ => ⟨hb.closing hc, hnil, hunder'⟩⟩
    · have := hb.scheduled
      rw [hunder] at this
      rw [hunder']
      exact this
    · rw [hunder']
      exact List.nodup_nil

/-! ### Courses -/

theorem capacity_budget_step (h : Step sink d d') :
    d'.queue.budget.capacity = d.queue.budget.capacity := by
  cases h with
  | send | begin | close | stop => rfl
  | hear => rw [hear_eq]
  | take => exact WriteQueue.capacity_budget_releaseAll _ _

theorem capacity_budget_occur (o : Occurrence) :
    (d.occur sink o).queue.budget.capacity = d.queue.budget.capacity := by
  cases o with
  | offer span => exact WriteQueue.capacity_budget_schedule _ _ _
  | move =>
    unfold occur
    cases hs : d.step? sink with
    | none => rfl
    | some d' => exact capacity_budget_step (step_of_step? hs)
  | wait | stop | orphan => rfl

/-- **One occurrence** keeps the balance. -/
theorem balanced_occur (hs : sink.Itemwise) (hb : d.Balanced n)
    (hl : 0 < d.writer.settings.drainLength) {o : Occurrence}
    (ho : ∀ span, o = .offer span → d.queue.Counts span) :
    (d.occur sink o).Balanced (n + superseded (d.taken (d.occur sink o))) := by
  have same : d.queue.elements.length ≤ (d.occur sink o).queue.elements.length →
      (d.occur sink o).Balanced n →
      (d.occur sink o).Balanced (n + superseded (d.taken (d.occur sink o))) := by
    intro hq hb'
    rw [taken_eq_nil hq]
    exact hb'
  cases o with
  | offer span =>
    refine same ?_ (balanced_schedule hb (ho span rfl))
    by_cases hq : (d.schedule span).2 = .queued
    · rw [occur, (schedule_of_queued (ho span rfl) hq).1]
      simp [WriteQueue.push]
    · obtain ⟨account, hsch, -⟩ := schedule_of_refused (ho span rfl) hq
      rw [occur, hsch]
  | move =>
    unfold occur
    cases hstep : d.step? sink with
    | none => rw [Option.getD_none, taken_eq_nil (le_refl _)]; exact hb
    | some d' => exact balanced_step hs (step_of_step? hstep) hb hl
  | wait nanos =>
    exact same (le_refl _)
      ⟨hb.exact, hb.scheduled, hb.reported, hb.nodup, hb.closing, hb.stopped⟩
  | stop =>
    exact same (le_refl _)
      ⟨hb.exact, hb.scheduled, hb.reported, hb.nodup, hb.closing, hb.stopped⟩
  | orphan =>
    exact same (le_refl _) ⟨⟨hb.exact.used, hb.exact.countable⟩, hb.scheduled, hb.reported, hb.nodup,
      hb.closing, hb.stopped⟩

theorem settings_occur (o : Occurrence) :
    (d.occur sink o).writer.settings = d.writer.settings := settings_course [o] d

/-- **Every course** keeps the balance. -/
theorem balanced_course (hs : sink.Itemwise) (os : List Occurrence) (hb : d.Balanced n)
    (hl : 0 < d.writer.settings.drainLength)
    (hc : d.queue.budget.capacity < byteRange - 1 ∨ Countable sink d os) :
    (d.course sink os).Balanced (n + supersededDuring sink d os) := by
  induction os generalizing d n with
  | nil => exact hb
  | cons o os ih =>
    have ho : ∀ span, o = .offer span → d.queue.Counts span := fun span he =>
      hc.imp id fun h => h.1 span he
    have h := ih (balanced_occur hs hb hl ho)
      (by rw [settings_occur]; exact hl)
      (hc.imp (fun h => by rw [capacity_budget_occur]; exact h) And.right)
    rw [supersededDuring, ← Nat.add_assoc]
    exact h

end Desk

/-! ### From the start to the end -/

/-- **No accepted span disappears**: when the writer has stopped, the queue is empty, no bytes are in
use, every accepted span is flushed, lost, skipped or superseded, and the lost ones are those of the
reported errors. However the run went, shutting down makes the writer stop. -/
theorem accepted_spans_settled {σ : Type} {config : Config} (hv : config.validate = .ok config)
    {sink : Sink σ} (hs : sink.Itemwise) (store : σ) (os : List Occurrence)
    (hc : config.queueMaxBytes < byteRange - 1 ∨
      Desk.Countable sink (.of config.queue config.writer store) os) :
    let start : Desk σ := .of config.queue config.writer store
    let d := start.course sink os
    (d.writer.phase = .stopped →
      d.queue.queuedBytes = 0 ∧ d.queue.elements = [] ∧
      d.account.tally.scheduled = d.account.tally.flushed + d.account.tally.lost +
        d.account.tally.skipped + Desk.supersededDuring sink start os ∧
      reportedLost d.account.events = d.account.tally.lost) ∧
    ∃ more, d.shutdown sink = start.course sink (os ++ .stop :: more) ∧
      (d.shutdown sink).writer.phase = .stopped := by
  intro start d
  have hb : d.Balanced (0 + Desk.supersededDuring sink start os) :=
    Desk.balanced_course hs os (Desk.balanced_of _ _ _ _ _) (drainLength_pos_of_validate hv) hc
  rw [Nat.zero_add] at hb
  refine ⟨fun hp => ?_, ?_⟩
  · obtain ⟨-, hq, hu⟩ := hb.stopped hp
    refine ⟨?_, hq, ?_, hb.reported⟩
    · have := hb.exact.used
      rw [hq] at this
      exact this
    · have := hb.scheduled
      rw [hq, hu] at this
      exact this
  · obtain ⟨more, -, hmore⟩ := Desk.exists_course_shutdown sink d
    refine ⟨more, by rw [hmore, Desk.course_append], Desk.stopped_shutdown ?_⟩
    exact Desk.ne_nil_ahead_course os (by simp [start, Desk.of, Config.writer, Writer.of])

/-! ### A store in memory -/

theorem MemoryStore.map_id_indexAll (index : String) : ∀ (ds : List Document) (m : MemoryStore),
    (indexAll index m ds).2.map BulkItem.id = ds.map Document.id
  | [], _ => rfl
  | d :: ds, m => by
    have hd : (indexOne index m d).2.id = d.id := by
      unfold indexOne
      split
      · rfl
      · split <;> rfl
    rw [indexAll]
    dsimp only
    rw [List.map_cons, List.map_cons, hd, map_id_indexAll index ds]

theorem itemwise_memory : MemoryStore.sink.Itemwise where
  answer index ds m := by
    intro response h
    simp only [MemoryStore.sink, MemoryStore.bulkIndex] at h
    split at h
    · cases h
    · cases h
      rw [MemoryStore.map_id_indexAll]
  events _ _ _ := nofun

/-- A span is offered twice and another is rejected by the store, which fails two requests. -/
theorem accepted_spans_settled_memory :
    let store := (MemoryStore.empty.failNext 2).failDocument "b" 400
    let start : Desk MemoryStore := .of Config.default.queue Config.default.writer store
    let os := [.offer (.bare "a"), .offer (.bare "b"), .offer (.bare "a"), .move, .offer (.bare "c")]
    ∃ more,
      let d := start.course MemoryStore.sink (os ++ .stop :: more)
      d.writer.phase = .stopped ∧ d.queue.queuedBytes = 0 ∧ d.queue.elements = [] ∧
      d.account.tally.scheduled = d.account.tally.flushed + d.account.tally.lost +
        d.account.tally.skipped +
        Desk.supersededDuring MemoryStore.sink start (os ++ .stop :: more) ∧
      reportedLost d.account.events = d.account.tally.lost := by
  intro store start os
  have hv : Config.default.validate = .ok Config.default := by
    have hf : Config.default.fault? = none := by decide
    rw [Config.validate, hf]
  have hc : Config.default.queueMaxBytes < byteRange - 1 := by decide
  obtain ⟨-, more, hmore, hp⟩ := accepted_spans_settled hv itemwise_memory store os (Or.inl hc)
  rw [hmore] at hp
  have h := accepted_spans_settled hv itemwise_memory store (os ++ .stop :: more) (Or.inl hc)
  exact ⟨more, hp, h.1 hp⟩

end SpanRelay

import SpanRelay.Proofs.Queue.Bytes
import SpanRelay.Proofs.Writer.Course
import SpanRelay.Proofs.Writer.Requests
import SpanRelay.Proofs.Writer.Settlement

/-! # What a store is sent

Nothing but spans that were offered to the queue is on its way to a store. If the documents of all of
them are good and the store `Keeps` a property as long as it is sent good documents, then the store
has it at every moment: `Desk.Carries` is kept by every offer, move and passage of time
(`carries_occur`), and so by the shutdown (`carries_shutdown`). `Sink.noted` is a store with a list of
all that it was ever sent. -/

namespace SpanRelay

variable {σ : Type}

/-- A store has a property for good as long as it is sent good documents. -/
structure Sink.Keeps (sink : Sink σ) (good : Document → Prop) (kept : σ → Prop) : Prop where
  receive : ∀ now index ds store, (∀ d ∈ ds, good d) → kept store →
    kept (sink.receive now index ds store).1
  answer : ∀ index ds store, (∀ d ∈ ds, good d) → kept store → kept (sink.answer index ds store).1

namespace Desk

/-- Good documents only are queued or on their way, and the store has a property. -/
structure Carries (good : Document → Prop) (kept : σ → Prop) (d : Desk σ) : Prop where
  queued : ∀ e ∈ d.queue.elements, good (.ofSpan e.span)
  underway : ∀ doc ∈ d.underway, good doc
  store : kept d.store

variable {sink : Sink σ} {good : Document → Prop} {kept : σ → Prop} {d d' : Desk σ}

theorem carries_of (capacity maxBytes : Nat) (settings : WriterSettings) (backoff : Backoff)
    {store : σ} (hs : kept store) :
    Carries good kept (.of (.of capacity maxBytes) (.of settings backoff) store) where
  queued _ he := absurd he List.not_mem_nil
  underway _ hd := absurd hd List.not_mem_nil
  store := hs

theorem mem_underway_hear {wake : Nat} {delivery : Delivery} {doc : Document}
    (hp : d.writer.phase = .waiting wake delivery) (h : doc ∈ (d.hear sink delivery).underway) :
    doc ∈ d.underway := by
  rw [underway_of_waiting hp]
  rw [underway_hear] at h
  rcases List.mem_append.1 h with h | h
  · exact List.mem_append_left _ ((Delivery.settle_left_sublist _ _ _ delivery _).subset h)
  · exact List.mem_append_right _ h

theorem mem_underway_take {n : Nat} {doc : Document} (hp : d.writer.phase = .ready)
    (h : doc ∈ (d.process (d.queue.drain n).1 (d.queue.drain n).2).underway) :
    ∃ e ∈ d.queue.elements, doc = .ofSpan e.span := by
  rw [underway_take n hp] at h
  obtain ⟨span, hspan, rfl⟩ := List.mem_map.1 ((flatten_batches _ _).subset h)
  obtain ⟨e, he, rfl⟩ := Option.map_eq_some_iff.1 (mem_latest_iff.1 hspan)
  exact ⟨e, List.mem_of_mem_take (List.mem_reverse.1 (List.mem_of_find?_eq_some he)), rfl⟩

theorem carries_step (hk : sink.Keeps good kept) (h : Step sink d d') (hd : d.Carries good kept) :
    d'.Carries good kept := by
  cases h with
  | @send wake delivery hp hw =>
    have hdelivery : ∀ doc ∈ delivery.documents, good doc := by
      intro doc hdoc
      refine hd.underway doc (mem_underway_of_documents ?_)
      rw [hp]
      exact hdoc
    refine ⟨hd.queued, by rw [underway_send hp]; exact hd.underway, ?_⟩
    rw [send_eq]
    exact hk.receive _ _ _ _ hdelivery hd.store
  | @hear wake delivery hp hw =>
    have hdelivery : ∀ doc ∈ delivery.documents, good doc := by
      intro doc hdoc
      refine hd.underway doc (mem_underway_of_documents ?_)
      rw [hp]
      exact hdoc
    refine ⟨?_, fun doc hdoc => hd.underway doc (mem_underway_hear hp hdoc), ?_⟩
    · rw [hear_eq]
      exact hd.queued
    · rw [hear_eq]
      exact hk.answer _ _ _ hdelivery hd.store
  | begin hp ha => exact ⟨hd.queued, by rw [underway_begin hp ha]; exact hd.underway, hd.store⟩
  | take n hp ha hn =>
    have hqueue : (d.process (d.queue.drain n).1 (d.queue.drain n).2).queue.elements =
        d.queue.elements.drop n := WriteQueue.elements_releaseAll _ _
    refine ⟨fun e he => ?_, fun doc hdoc => ?_, hd.store⟩
    · rw [hqueue] at he
      exact hd.queued e (List.mem_of_mem_drop he)
    · obtain ⟨e, he, rfl⟩ := mem_underway_take hp hdoc
      exact hd.queued e he
  | close hp => exact ⟨hd.queued, hd.underway, hd.store⟩
  | stop hp ha =>
    refine ⟨hd.queued, fun doc hdoc => ?_, hd.store⟩
    rw [underway_stop ha] at hdoc
    cases hdoc

theorem carries_schedule {span : Span} (hs : good (.ofSpan span)) (hd : d.Carries good kept) :
    (d.schedule span).1.Carries good kept := by
  refine ⟨fun e he => ?_, hd.underway, hd.store⟩
  have hqueue : (d.schedule span).1.queue = (d.queue.schedule d.account span).1 := rfl
  rw [hqueue] at he
  unfold WriteQueue.schedule at he
  dsimp only at he
  split at he
  · exact hd.queued e he
  · split at he
    · exact hd.queued e he
    · split at he
      · rcases List.mem_append.1 he with he | he
        · exact hd.queued e he
        · obtain rfl := List.mem_singleton.1 he
          exact hs
      · exact hd.queued e he

theorem carries_scheduleAll (spans : List Span) (hs : ∀ x ∈ spans, good (.ofSpan x))
    (hd : d.Carries good kept) : (d.scheduleAll spans).Carries good kept := by
  induction spans generalizing d with
  | nil => exact hd
  | cons x spans ih =>
    exact ih (fun y hy => hs y (List.mem_cons_of_mem _ hy))
      (carries_schedule (hs x List.mem_cons_self) hd)

/-- **Whatever occurs at a desk**, if the documents of the spans offered are good. -/
theorem carries_occur (hk : sink.Keeps good kept) {o : Occurrence}
    (ho : ∀ span, o = .offer span → good (.ofSpan span)) (hd : d.Carries good kept) :
    (d.occur sink o).Carries good kept := by
  cases o with
  | offer span => exact carries_schedule (ho span rfl) hd
  | move =>
    unfold occur
    cases hs : d.step? sink with
    | none => exact hd
    | some d' => exact carries_step hk (step_of_step? hs) hd
  | wait | stop | orphan => exact ⟨hd.queued, hd.underway, hd.store⟩

theorem carries_course (hk : sink.Keeps good kept) (os : List Occurrence)
    (ho : ∀ o ∈ os, ∀ span, o = .offer span → good (.ofSpan span)) (hd : d.Carries good kept) :
    (d.course sink os).Carries good kept := by
  induction os generalizing d with
  | nil => exact hd
  | cons o os ih =>
    exact ih (d := d.occur sink o) (fun o' ho' => ho o' (List.mem_cons_of_mem _ ho'))
      (carries_occur hk (ho o List.mem_cons_self) hd)

theorem carries_shutdown (hk : sink.Keeps good kept) (hd : d.Carries good kept) :
    (d.shutdown sink).Carries good kept := by
  obtain ⟨os, hos, hcourse⟩ := exists_course_shutdown sink d
  rw [hcourse]
  refine carries_course hk _ (fun o ho span he => ?_) hd
  subst he
  rcases List.mem_cons.1 ho with ho | ho
  · cases ho
  · cases hos _ ho

end Desk

/-! ### All that was sent -/

/-- The store with a list of all documents that it was sent. -/
def Sink.noted (sink : Sink σ) : Sink (σ × List Document) where
  name := sink.name
  receive now index ds s :=
    let received := sink.receive now index ds s.1
    ((received.1, s.2 ++ ds), received.2)
  answer index ds s :=
    let answered := sink.answer index ds s.1
    ((answered.1, s.2), answered.2)

theorem Sink.keeps_noted (sink : Sink σ) (good : Document → Prop) :
    sink.noted.Keeps good fun s => ∀ d ∈ s.2, good d where
  receive _ _ ds s hds hs d hd := by
    rcases List.mem_append.1 hd with hd | hd
    · exact hs d hd
    · exact hds d hd
  answer _ _ _ _ hs := hs

end SpanRelay

import SpanRelay.Proofs.Writer.Course
import SpanRelay.Proofs.Writer.Latest
import SpanRelay.Proofs.Writer.Requests
import SpanRelay.Proofs.Writer.Shutdown

/-! # What the store will hold

A store is `Accepting` if it keeps every document it is sent in place of an earlier one of the same
id. What it will hold of an id is then known before the documents have arrived: the `prospect` of a
desk is the last version that is queued, else the one on its way, else the content of the store. No
move of the writer changes the prospect (`Awaits`, `awaits_course`), a span that is accepted becomes
part of it (`awaits_scheduleAll`), and in the end the content is what the prospect was
(`content_shutdown`). -/

namespace SpanRelay

/-- A store whose content is seen by ids. -/
structure StoreView (σ β : Type) where
  /-- What the store holds of an id. -/
  content : σ → String → Option β
  /-- What a document is seen as. -/
  render : Document → β
  /-- Whether nothing is in the way of the store. -/
  calm : σ → Prop

namespace StoreView

variable {σ β : Type}

/-- What a span is seen as when it is written. -/
def shown (v : StoreView σ β) (span : Span) : β := v.render (.ofSpan span)

/-- What is seen of an id in some documents. -/
def among (v : StoreView σ β) (ds : List Document) (id : String) : Option β :=
  (ds.find? fun d => d.id = id).map v.render

theorem among_eq_none {v : StoreView σ β} {ds : List Document} {id : String} :
    v.among ds id = none ↔ id ∉ ds.map Document.id := by
  simp [among, List.find?_eq_none]

theorem among_of_mem {v : StoreView σ β} {ds : List Document} (h : (ds.map Document.id).Nodup)
    {d : Document} (hd : d ∈ ds) : v.among ds d.id = some (v.render d) := by
  unfold among
  cases hf : ds.find? fun e => e.id = d.id with
  | none => exact absurd (decide_eq_true rfl) (List.find?_eq_none.1 hf d hd)
  | some e =>
    have hid := List.find?_some (p := fun e => decide (Document.id e = d.id)) hf
    rw [List.inj_on_of_nodup_map h (List.mem_of_find?_eq_some hf) hd (of_decide_eq_true hid)]
    rfl

theorem among_append (v : StoreView σ β) (ds es : List Document) (id : String) :
    v.among (ds ++ es) id = (v.among ds id).or (v.among es id) := by
  unfold among
  rw [List.find?_append]
  cases ds.find? fun d => d.id = id <;> rfl

theorem among_append_comm {v : StoreView σ β} {ds es : List Document}
    (h : ((ds ++ es).map Document.id).Nodup) (id : String) :
    (v.among ds id).or (v.among es id) = (v.among es id).or (v.among ds id) := by
  rw [List.map_append] at h
  have hdisjoint := (List.nodup_append.1 h).2.2
  by_cases hd : id ∈ ds.map Document.id
  · have he : v.among es id = none := among_eq_none.2 fun he => hdisjoint id hd id he rfl
    rw [he, Option.or_none, Option.none_or]
  · rw [among_eq_none.2 hd, Option.or_none, Option.none_or]

end StoreView

/-- What is seen after some spans were written over what was seen before. -/
def StoreView.after {σ β : Type} (v : StoreView σ β) (spans : List Span)
    (before : String → Option β) (id : String) : Option β :=
  ((lastVersion? id spans).map v.shown).or (before id)

/-- A request that arrives does not change what a calm store holds. -/
def Sink.Receptive {σ β : Type} (sink : Sink σ) (index : String) (v : StoreView σ β) : Prop :=
  ∀ now ds store, v.calm store → v.calm (sink.receive now index ds store).1 ∧
    v.content (sink.receive now index ds store).1 = v.content store

/-- A store that accepts everything it is sent for an index: as long as it is calm it stays so,
acknowledges each request of documents of distinct spans, and holds these documents then. -/
structure Sink.Accepting {σ β : Type} (sink : Sink σ) (index : String) (v : StoreView σ β) :
    Prop where
  receive : ∀ now ds store, v.calm store → v.calm (sink.receive now index ds store).1 ∧
    v.content (sink.receive now index ds store).1 = v.content store
  answer : ∀ ds store, v.calm store → (ds.map Document.id).Nodup →
    (∀ d ∈ ds, ∃ span, d = .ofSpan span) →
    v.calm (sink.answer index ds store).1 ∧
      (∃ response, (sink.answer index ds store).2.2 = .ok response ∧ response.hasFailures = false) ∧
      ∀ id, v.content (sink.answer index ds store).1 id =
        (v.among ds id).or (v.content store id)

namespace Desk

variable {σ β : Type} {sink : Sink σ} {v : StoreView σ β} {d d' : Desk σ}
  {expected : String → Option β}

/-- What the store will hold of an id when all that is queued or on its way has arrived. -/
def prospect (v : StoreView σ β) (d : Desk σ) (id : String) : Option β :=
  ((lastSpan? id d.queue.elements).map v.shown).or
    ((v.among d.underway id).or (v.content d.store id))

/-- The store will hold what is expected. -/
structure Awaits (v : StoreView σ β) (d : Desk σ) (expected : String → Option β) : Prop where
  calm : v.calm d.store
  nodup : (d.underway.map Document.id).Nodup
  spans : ∀ doc ∈ d.underway, ∃ span, doc = .ofSpan span
  prospect : ∀ id, d.prospect v id = expected id
  stopped : d.writer.phase = .stopped → d.queue.elements = [] ∧ d.underway = []

/-! ### Last versions -/

theorem lastSpan?_append (id : String) (es fs : List QueueElement) :
    lastSpan? id (es ++ fs) = (lastSpan? id fs).or (lastSpan? id es) := by
  unfold lastSpan?
  rw [List.reverse_append, List.find?_append]
  cases fs.reverse.find? fun e => e.id = id <;> rfl

/-- The documents of a flush are seen as the last versions of what was taken out. -/
theorem among_batches (v : StoreView σ β) (l : BatchLimits) (es : List QueueElement) (id : String) :
    v.among (batches l (latest es)).flatten id = (lastSpan? id es).map v.shown := by
  have hperm := flatten_batches l (latest es)
  cases hspan : lastSpan? id es with
  | none =>
    refine StoreView.among_eq_none.2 fun hid => ?_
    obtain ⟨d, hd, rfl⟩ := List.mem_map.1 hid
    obtain ⟨span, hmem, rfl⟩ := List.mem_map.1 (hperm.subset hd)
    have : lastSpan? span.id es = some span := mem_latest_iff.1 hmem
    rw [show lastSpan? span.id es = none from hspan] at this
    cases this
  | some span =>
    have hid : span.id = id := by
      obtain ⟨e, he, rfl⟩ := Option.map_eq_some_iff.1 hspan
      have : e.id = id := by simpa using List.find?_some he
      exact this
    subst hid
    have hmem : Document.ofSpan span ∈ (batches l (latest es)).flatten :=
      hperm.symm.subset (List.mem_map_of_mem (mem_latest_iff.2 hspan))
    exact StoreView.among_of_mem (nodup_ids_batches l (nodup_latest es)) hmem

/-! ### Moves of the writer -/

theorem nodup_of_waiting {wake : Nat} {delivery : Delivery} (h : (d.underway.map Document.id).Nodup)
    (hp : d.writer.phase = .waiting wake delivery) : (delivery.documents.map Document.id).Nodup := by
  rw [underway_of_waiting hp, List.map_append] at h
  exact (List.nodup_append.1 h).1

theorem settle_of_accepted (maxRetries : Nat) (backoff : Backoff) (a : Account)
    (delivery : Delivery) {answer : Answer}
    (h : ∃ response, answer = .ok response ∧ response.hasFailures = false) :
    delivery.settle maxRetries backoff a answer =
      ⟨backoff.decrease, a.addFlushed delivery.documents.length, none⟩ := by
  obtain ⟨response, rfl, hf⟩ := h
  unfold Delivery.settle
  dsimp only
  rw [hf]
  rfl

theorem tally_foldl_note : ∀ (es : List Event) (a : Account), (es.foldl Account.note a).tally = a.tally
  | [], _ => rfl
  | e :: es, a => tally_foldl_note es (a.note e)

theorem awaits_send (hr : sink.Receptive d.writer.settings.index v) (h : d.Awaits v expected)
    {wake : Nat} {delivery : Delivery} (hp : d.writer.phase = .resting wake delivery) :
    (d.send sink delivery).Awaits v expected := by
  obtain ⟨hcalm, hcontent⟩ := hr d.now delivery.documents d.store h.calm
  have hunder : (d.send sink delivery).underway = d.underway := underway_send hp
  refine ⟨?_, ?_, ?_, fun id => ?_, nofun⟩
  · rw [send_eq]
    exact hcalm
  · rw [hunder]
    exact h.nodup
  · rw [hunder]
    exact h.spans
  · have hid := h.prospect id
    unfold prospect at hid ⊢
    rw [hunder, send_eq]
    dsimp only
    rw [hcontent]
    exact hid

theorem awaits_hear_of_accepted (h : d.Awaits v expected) {wake : Nat} {delivery : Delivery}
    (hp : d.writer.phase = .waiting wake delivery)
    (hcalm : v.calm (sink.answer d.writer.settings.index delivery.documents d.store).1)
    (hok : ∃ response, (sink.answer d.writer.settings.index delivery.documents d.store).2.2 =
      .ok response ∧ response.hasFailures = false)
    (hcontent : ∀ id, v.content (sink.answer d.writer.settings.index delivery.documents d.store).1 id =
      (v.among delivery.documents id).or (v.content d.store id)) :
    (d.hear sink delivery).Awaits v expected ∧
      (d.hear sink delivery).account.tally.dropped = d.account.tally.dropped := by
  have hunder := underway_of_waiting hp
  have hnodup := h.nodup
  rw [hunder] at hnodup
  have hspans := h.spans
  rw [hunder] at hspans
  have hsettle : d.settlement sink delivery = _ := settle_of_accepted _ _ _ _ hok
  have hphase : Settlement.phase (d.settlement sink delivery) d.now = .ready := by
    rw [hsettle]
    rfl
  have hunder' : (d.hear sink delivery).underway = d.writer.ahead.flatten := by
    rw [underway_hear, hsettle]
    rfl
  refine ⟨⟨?_, ?_, ?_, fun id => ?_, ?_⟩, ?_⟩
  · rw [hear_eq]
    exact hcalm
  · rw [hunder']
    rw [List.map_append] at hnodup
    exact (List.nodup_append.1 hnodup).2.1
  · rw [hunder']
    exact fun doc hdoc => hspans doc (List.mem_append_right _ hdoc)
  · have hid := h.prospect id
    unfold prospect at hid ⊢
    rw [hunder, StoreView.among_append, StoreView.among_append_comm hnodup, Option.or_assoc] at hid
    rw [hunder', hear_eq]
    dsimp only
    rw [hcontent]
    exact hid
  · rw [hear_eq]
    dsimp only
    rw [hphase]
    exact nofun
  · rw [hear_eq]
    dsimp only
    rw [hsettle]
    dsimp only [Account.addFlushed]
    rw [tally_foldl_note]

theorem awaits_hear (hs : sink.Accepting d.writer.settings.index v) (h : d.Awaits v expected)
    {wake : Nat} {delivery : Delivery} (hp : d.writer.phase = .waiting wake delivery) :
    (d.hear sink delivery).Awaits v expected ∧
      (d.hear sink delivery).account.tally.dropped = d.account.tally.dropped := by
  obtain ⟨hcalm, hok, hcontent⟩ := hs.answer delivery.documents d.store h.calm
    (nodup_of_waiting h.nodup hp) fun doc hdoc =>
      h.spans doc (mem_underway_of_documents (by rw [hp]; exact hdoc))
  exact awaits_hear_of_accepted h hp hcalm hok hcontent

theorem awaits_take (h : d.Awaits v expected) {n : Nat} (hp : d.writer.phase = .ready)
    (ha : d.writer.ahead = []) :
    (d.process (d.queue.drain n).1 (d.queue.drain n).2).Awaits v expected := by
  have hunder := underway_of_ready hp ha
  have hunder' := underway_take n hp
  have hqueue : (d.process (d.queue.drain n).1 (d.queue.drain n).2).queue.elements =
      d.queue.elements.drop n := WriteQueue.elements_releaseAll _ _
  refine ⟨h.calm, ?_, ?_, fun id => ?_, fun hst => ?_⟩
  · rw [hunder']
    exact nodup_ids_batches _ (nodup_latest _)
  · rw [hunder']
    intro doc hdoc
    obtain ⟨span, -, rfl⟩ := List.mem_map.1 ((flatten_batches _ _).subset hdoc)
    exact ⟨span, rfl⟩
  · have hid := h.prospect id
    unfold prospect at hid ⊢
    rw [hunder', hqueue, among_batches]
    have hsplit := lastSpan?_append id (d.queue.elements.take n) (d.queue.elements.drop n)
    rw [List.take_append_drop] at hsplit
    rw [hsplit, hunder] at hid
    refine Eq.trans ?_ hid
    rw [← Option.or_assoc]
    cases lastSpan? id (d.queue.elements.drop n) <;>
      cases lastSpan? id (d.queue.elements.take n) <;> rfl
  · simp only [process, enqueueSpans] at hst
    rw [hp] at hst
    cases hst

/-- **No move** of the writer changes what the store will hold, if the answers do not. -/
theorem awaits_step_of_hear (hr : sink.Receptive d.writer.settings.index v)
    (hhear : ∀ wake delivery, d.writer.phase = .waiting wake delivery →
      (d.hear sink delivery).Awaits v expected)
    (h : Step sink d d') (ha : d.Awaits v expected) (hl : 0 < d.writer.settings.drainLength) :
    d'.Awaits v expected := by
  cases h with
  | send hp hw => exact awaits_send hr ha hp
  | hear hp hw => exact hhear _ _ hp
  | begin hp hb =>
    have hunder := underway_begin hp hb
    refine ⟨ha.calm, by rw [hunder]; exact ha.nodup, by rw [hunder]; exact ha.spans, fun id => ?_,
      nofun⟩
    unfold prospect
    rw [hunder]
    exact ha.prospect id
  | take n hp hb hn => exact awaits_take ha hp hb
  | close hp => exact ⟨ha.calm, ha.nodup, ha.spans, ha.prospect, ha.stopped⟩
  | stop hp hb hc hn =>
    have hnil := elements_of_take_eq_nil hl hn
    have hunder := underway_of_ready hp hb
    have hunder' := underway_stop hb
    refine ⟨ha.calm, by rw [hunder']; exact List.nodup_nil, by rw [hunder']; exact nofun,
      fun id => ?_, fun _ => ⟨hnil, hunder'⟩⟩
    have hid := ha.prospect id
    unfold prospect at hid ⊢
    rw [hunder] at hid
    rw [hunder']
    exact hid

theorem awaits_step (hs : sink.Accepting d.writer.settings.index v) (h : Step sink d d')
    (ha : d.Awaits v expected) (hl : 0 < d.writer.settings.drainLength) :
    d'.Awaits v expected ∧ d'.account.tally.dropped = d.account.tally.dropped := by
  refine ⟨awaits_step_of_hear hs.receive (fun _ _ hp => (awaits_hear hs ha hp).1) h ha hl, ?_⟩
  cases h with
  | hear hp => exact (awaits_hear hs ha hp).2
  | send | begin | take | close | stop => rfl

/-- **What the writer does by itself** does not change what the store will hold. -/
theorem awaits_course (os : List Occurrence) (ho : ∀ o ∈ os, o.isOwn = true ∨ o = .stop)
    (hs : sink.Accepting d.writer.settings.index v) (ha : d.Awaits v expected)
    (hl : 0 < d.writer.settings.drainLength) : (d.course sink os).Awaits v expected := by
  induction os generalizing d with
  | nil => exact ha
  | cons o os ih =>
    have hset : (d.occur sink o).writer.settings = d.writer.settings := settings_course [o] d
    refine ih (d := d.occur sink o) (fun o' ho' => ho o' (List.mem_cons_of_mem _ ho'))
      (by rw [hset]; exact hs) ?_ (by rw [hset]; exact hl)
    cases o with
    | move =>
      unfold occur
      cases hstep : d.step? sink with
      | none => exact ha
      | some d' => exact (awaits_step hs (step_of_step? hstep) ha hl).1
    | wait nanos => exact ⟨ha.calm, ha.nodup, ha.spans, ha.prospect, ha.stopped⟩
    | stop => exact ⟨ha.calm, ha.nodup, ha.spans, ha.prospect, ha.stopped⟩
    | offer | orphan => rcases ho _ List.mem_cons_self with h | h <;> cases h

/-! ### Offers -/

theorem after_append (v : StoreView σ β) (xs ys : List Span) (before : String → Option β) :
    v.after (xs ++ ys) before = v.after ys (v.after xs before) := by
  funext id
  unfold StoreView.after
  rw [lastVersion?_append, ← Option.or_assoc]
  cases lastVersion? id ys <;> rfl

/-- A desk whose writer was not told to stop. -/
structure Live (d : Desk σ) : Prop where
  closed : d.queue.closed = false
  orphaned : d.queue.orphaned = false
  closing : d.writer.closing = false
  stopping : d.writer.stopping = false
  phase : d.writer.phase ≠ .stopped

theorem live_step (h : Step sink d d') (hl : d.Live) : d'.Live := by
  cases h with
  | send | begin => exact ⟨hl.closed, hl.orphaned, hl.closing, hl.stopping, nofun⟩
  | hear =>
    rw [hear_eq]
    refine ⟨hl.closed, hl.orphaned, hl.closing, hl.stopping, ?_⟩
    dsimp only [Settlement.phase]
    split <;> exact nofun
  | take n hp =>
    refine ⟨?_, ?_, hl.closing, hl.stopping, hl.phase⟩
    · exact (WriteQueue.closed_releaseAll _ _).trans hl.closed
    · exact (WriteQueue.orphaned_releaseAll _ _).trans hl.orphaned
  | close hp ha hc hs =>
    rcases hs with hs | hs
    · rw [hl.stopping] at hs
      cases hs
    · simp [WriteQueue.isExhausted, hl.closed, hl.orphaned] at hs
  | stop hp ha hc =>
    rw [hl.closing] at hc
    cases hc

theorem schedule_live (hl : d.Live) (span : Span) :
    ∃ budget account,
      ((d.schedule span).1 = { d with
          queue := { d.queue with budget, elements := d.queue.elements ++ [.of span] }
          account } ∧
        (d.schedule span).1.account.tally.dropped = d.account.tally.dropped) ∨
      ((d.schedule span).1 = { d with queue := { d.queue with budget }, account } ∧
        (d.schedule span).1.account.tally.dropped = d.account.tally.dropped + 1) := by
  have hdrop : ∀ (q : WriteQueue) (reason : DropReason),
      (q.accountDrop d.account (.of span) reason).tally.dropped = d.account.tally.dropped + 1 := by
    intro q reason
    unfold WriteQueue.accountDrop
    dsimp only
    split <;> rfl
  unfold schedule WriteQueue.schedule
  dsimp only
  cases d.queue.budget.acquire? (QueueElement.of span).size with
  | none => exact ⟨_, _, Or.inr ⟨rfl, hdrop _ _⟩⟩
  | some budget =>
    dsimp only
    rw [hl.closed]
    simp only [Bool.false_eq_true, if_false]
    split
    · exact ⟨_, _, Or.inl ⟨rfl, rfl⟩⟩
    · exact ⟨_, _, Or.inr ⟨rfl, hdrop _ _⟩⟩

theorem awaits_schedule (ha : d.Awaits v expected) (hl : d.Live) (span : Span) :
    ∃ accepted : List Span, accepted.Sublist [span] ∧
      (d.schedule span).1.Awaits v (v.after accepted expected) ∧ (d.schedule span).1.Live ∧
      (d.schedule span).1.account.tally.dropped + accepted.length =
        d.account.tally.dropped + 1 := by
  obtain ⟨budget, account, ⟨hs, hd⟩ | ⟨hs, hd⟩⟩ := schedule_live hl span
  · refine ⟨[span], List.Sublist.refl _, ?_, ?_, by rw [hd]; rfl⟩
    · rw [hs]
      refine ⟨ha.calm, ha.nodup, ha.spans, fun id => ?_, fun hp => absurd hp hl.phase⟩
      have hlast : lastSpan? id [QueueElement.of span] = lastVersion? id [span] := by
        by_cases h : span.id = id <;>
          simp [lastSpan?, lastVersion?, QueueElement.of, QueueElement.id, h]
      rw [StoreView.after, ← ha.prospect id]
      unfold prospect
      rw [lastSpan?_append, hlast]
      cases lastVersion? id [span] <;> rfl
    · rw [hs]
      exact ⟨hl.closed, hl.orphaned, hl.closing, hl.stopping, hl.phase⟩
  · refine ⟨[], List.nil_sublist _, ?_, ?_, hd⟩
    · rw [hs]
      exact ⟨ha.calm, ha.nodup, ha.spans, ha.prospect, ha.stopped⟩
    · rw [hs]
      exact ⟨hl.closed, hl.orphaned, hl.closing, hl.stopping, hl.phase⟩

/-- **Spans that are offered** are dropped and counted, or the store will hold them. -/
theorem awaits_scheduleAll (spans : List Span) (ha : d.Awaits v expected) (hl : d.Live) :
    ∃ accepted : List Span, accepted.Sublist spans ∧
      (d.scheduleAll spans).Awaits v (v.after accepted expected) ∧ (d.scheduleAll spans).Live ∧
      (d.scheduleAll spans).account.tally.dropped + accepted.length =
        d.account.tally.dropped + spans.length := by
  induction spans generalizing d expected with
  | nil => exact ⟨[], List.Sublist.refl _, ha, hl, rfl⟩
  | cons span spans ih =>
    obtain ⟨first, hsub, ha', hl', hd⟩ := awaits_schedule ha hl span
    obtain ⟨rest, hsub', ha'', hl'', hd'⟩ := ih ha' hl'
    refine ⟨first ++ rest, hsub.append hsub', ?_, hl'', ?_⟩
    · rw [after_append]
      exact ha''
    · have hall : d.scheduleAll (span :: spans) = (d.schedule span).1.scheduleAll spans := rfl
      rw [hall, List.length_append, List.length_cons]
      omega

/-- **In the end** the store holds what it was to hold. -/
theorem content_shutdown (hs : sink.Accepting d.writer.settings.index v) (ha : d.Awaits v expected)
    (hl : 0 < d.writer.settings.drainLength) (hb : ∀ b ∈ d.writer.ahead, b ≠ []) (id : String) :
    v.content (d.shutdown sink).store id = expected id := by
  obtain ⟨os, hos, hcourse⟩ := exists_course_shutdown sink d
  have hend : (d.shutdown sink).Awaits v expected := by
    rw [hcourse]
    refine awaits_course _ (fun o ho => ?_) hs ha hl
    rcases List.mem_cons.1 ho with rfl | ho
    · exact Or.inr rfl
    · exact Or.inl (hos o ho)
  obtain ⟨hqueue, hunder⟩ := hend.stopped (stopped_shutdown hb)
  have hid := hend.prospect id
  unfold prospect at hid
  rw [hqueue, hunder] at hid
  exact hid

end Desk

end SpanRelay

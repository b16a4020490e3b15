import SpanRelay.Proofs.Pipeline.Course
import SpanRelay.Proofs.Writer.Lossless
import SpanRelay.Proofs.Writer.Refinement

/-! # A desk with a store in memory

A store in memory in which nothing goes wrong confirms every request. So if a desk drops nothing, its
shutdown ends with no bytes in use and nothing lost, and the store holds for its index the last version of
each span that was offered, and nothing else (`settled_shutdown`). All of them can be read if the messages
of the calls are `Bounded` (`Registry.bounded_handed`). -/

namespace SpanRelay

/-- A store without documents of an index, in which nothing goes wrong. -/
structure MemoryStore.Blank (m : MemoryStore) (index : String) : Prop where
  entries : m.entries index = []
  requests : m.failingRequests = 0
  documents : m.failingDocuments = .empty

/-! ### Spans that can be read -/

/-- The message that a call carries. -/
def Call.message? : Call → Option Snapshot
  | hook (.before _ _ _ _ m _) | hook (.after _ m _ _) => some m
  | start .. | hook _ => none

section Bounded

variable {k : Nat} {policy : Policy} {sample : UInt64 → Bool} {x : Span}

theorem Snapshot.bounded_filtered {m s : Snapshot} {level : Level} {captureBody : Bool}
    (hm : m.Bounded k) (hs : m.filtered level captureBody = some s) : s.Bounded k := by
  have hproperties : s.properties = m.properties := by
    cases level <;> cases captureBody <;> cases hs <;> rfl
  unfold Bounded
  rw [hproperties]
  exact hm

theorem Span.bounded_of_eq {y : Span} (hb : y.before = x.before) (ha : y.after = x.after)
    (hx : x.Bounded k) : y.Bounded k := by
  unfold Bounded
  rw [hb, ha]
  exact hx

theorem Span.bounded_abandon (hx : x.Bounded k) : x.abandon.Bounded k := by
  unfold abandon
  split
  · exact bounded_of_eq rfl rfl hx
  · exact hx

theorem Registry.passes_bounded {c : Call} (hc : ∀ m, c.message? = some m → m.Bounded k) :
    Passes (Span.Bounded k) c := by
  rintro hook rfl h f hkept x hmade
  induction hmade with
  | kept hy => exact hkept _ hy
  | opened hb =>
    subst hb
    rintro s (hs | hs)
    · exact Snapshot.bounded_filtered (hc _ rfl) hs
    · cases hs
  | completed ha _ ih =>
    subst ha
    rintro s (hs | hs)
    · exact ih s (Or.inl hs)
    · exact Snapshot.bounded_filtered (hc _ rfl) hs
  | stamped _ _ ih => exact Span.bounded_of_eq rfl rfl ih
  | abandoned _ ih => exact Span.bounded_abandon ih

/-- **Spans are as bounded as the messages** of the calls. -/
theorem Registry.bounded_handed {cs : List Call}
    (hcs : ∀ c ∈ cs, ∀ m, c.message? = some m → m.Bounded k) :
    ∀ x ∈ empty.handed policy sample cs, x.Bounded k :=
  (forall_calls cs sound_empty (fun _ _ hx => absurd hx List.not_mem_nil) fun c hc =>
    passes_bounded (hcs c hc)).2

end Bounded

/-! ### Courses on a store in which nothing goes wrong -/

namespace Desk

variable {σ : Type} {sink : Sink σ}

theorem countable_of_not_offer (os : List Occurrence) (h : ∀ o ∈ os, ∀ span, o ≠ .offer span)
    (d : Desk σ) : Countable sink d os := by
  induction os generalizing d with
  | nil => trivial
  | cons o os ih =>
    exact ⟨fun span ho => absurd ho (h o List.mem_cons_self span),
      ih (fun o' ho' => h o' (List.mem_cons_of_mem _ ho')) _⟩

theorem countable_append : ∀ (os ps : List Occurrence) {d : Desk σ}, Countable sink d os →
    Countable sink (d.course sink os) ps → Countable sink d (os ++ ps)
  | [], _, _, _, h => h
  | _ :: os, ps, _, h, h' => ⟨h.1, countable_append os ps h.2 h'⟩

/-- **A course that ends** with the writer stopped, on a store in which nothing goes wrong: no bytes
are in use, nothing is lost, and the store holds the last versions of what was accepted. -/
theorem settled_course {config : Config} (hdrain : 0 < config.drainLength) {store : MemoryStore}
    (hblank : store.Blank config.indexName) (os : List Occurrence) :
    let start : Desk MemoryStore := .of config.queue config.writer store
    let d := start.course MemoryStore.sink os
    let accepted := start.accepted MemoryStore.sink (os.map .occurrence)
    (∀ x ∈ accepted, x.Readable) →
      config.queueMaxBytes < byteRange - 1 ∨ Countable MemoryStore.sink start os →
      d.writer.phase = .stopped →
      d.queue.queuedBytes = 0 ∧ d.account.tally.lost = 0 ∧
        (d.store.stock config.indexName).keys.Nodup ∧ ∀ id,
          d.store.document? config.indexName id = (lastVersion? id accepted).map Span.stored := by
  intro start d accepted hreadable hcount hstopped
  have hhistory : d = start.history MemoryStore.sink (os.map .occurrence) :=
    (history_occurrences os).symm
  have hgood : ∀ x ∈ accepted, (Json.parse? (Document.ofSpan x).body).isSome = true :=
    fun x hx => isSome_parse?_ofSpan (hreadable x hx)
  have hharmless : ∀ i ∈ os.map Incident.occurrence,
      i.Harmless (MemoryStore.view config.indexName) := by
    intro i hi
    obtain ⟨o, -, rfl⟩ := List.mem_map.1 hi
    trivial
  have hcalm := MemoryStore.calm_of_entries hblank.entries hblank.documents
  -- no request fails, so every one is confirmed
  have hnone : start.store.failingRequests = 0 := hblank.requests
  have hrow : FailsAtMost config.maxWriteRetries
      (start.answers MemoryStore.sink (os.map .occurrence)) := fun run hinfix hfails =>
    (failsAtMost_failing os start run hinfix hfails).trans (hnone ▸ Nat.zero_le _)
  have hconfirms : ∀ a ∈ start.answers MemoryStore.sink (os.map .occurrence), a.Confirms := by
    intro a ha
    have hle := countP_answers_le os start
    rw [hnone, Nat.le_zero, List.countP_eq_zero] at hle
    have hendures : start.Endures (MemoryStore.view config.indexName)
        (fun doc => (Json.parse? doc.body).isSome = true) _ [] [] := endures_of _ _ _ _ hcalm
    refine confirms_of_isOk _ (MemoryStore.faltering_memory _) hdrain hharmless hgood ?_ hendures a ha
      (by simpa using hle a ha)
    exact hrow
  refine ⟨?_, ?_, ?_⟩
  · have hb : d.Balanced _ := balanced_course itemwise_memory os (balanced_of _ _ _ _ _) hdrain hcount
    have hused := hb.exact.used
    rw [(hb.stopped hstopped).2.1] at hused
    exact hused
  · rw [hhistory, lost_history _ hconfirms]
    rfl
  · obtain ⟨hend, hcontent⟩ := content_of_stopped config.queueCapacity config.queueMaxBytes
      config.writer.settings config.writer.backoff hcalm (MemoryStore.faltering_memory _) hdrain
      (os.map .occurrence) hharmless hgood hrow (hhistory ▸ hstopped)
    rw [hhistory]
    exact ⟨hend.2, fun id => (hcontent id).trans (MemoryStore.after_of_readable _ hreadable
      (MemoryStore.document?_of_entries hblank.entries id))⟩

/-- **After the shutdown** of a desk that has dropped nothing, the writer has stopped, no bytes are in
use, nothing is lost, and the store holds the last versions of what was offered. -/
theorem settled_shutdown {config : Config} (hdrain : 0 < config.drainLength) {store : MemoryStore}
    (hblank : store.Blank config.indexName) {os : List Occurrence}
    (hos : ∀ o ∈ os, o ≠ .stop ∧ o ≠ .orphan) :
    let start : Desk MemoryStore := .of config.queue config.writer store
    let d := (start.course MemoryStore.sink os).shutdown MemoryStore.sink
    (∀ x ∈ offeredIn os, x.Readable) →
      config.queueMaxBytes < byteRange - 1 ∨ Countable MemoryStore.sink start os →
      (start.course MemoryStore.sink os).account.tally.dropped = 0 →
      d.writer.phase = .stopped ∧ d.queue.queuedBytes = 0 ∧ d.account.tally.lost = 0 ∧
        (d.store.stock config.indexName).keys.Nodup ∧ ∀ id,
          d.store.document? config.indexName id = (lastVersion? id (offeredIn os)).map Span.stored := by
  intro start d hreadable hcount hdrop
  -- the shutdown offers nothing
  obtain ⟨more, hown, hmore⟩ := exists_course_shutdown MemoryStore.sink
    (start.course MemoryStore.sink os)
  have hwhole : d = start.course MemoryStore.sink (os ++ .stop :: more) :=
    hmore.trans (course_append _ _ _ _).symm
  have hquiet : ∀ o ∈ Occurrence.stop :: more, ∀ span, o ≠ .offer span := by
    rintro o ho span rfl
    rcases List.mem_cons.1 ho with ho | ho
    · cases ho
    · cases hown _ ho
  have hcount' : config.queueMaxBytes < byteRange - 1 ∨
      Countable MemoryStore.sink start (os ++ .stop :: more) :=
    hcount.imp_right fun h => countable_append os _ h (countable_of_not_offer _ hquiet _)
  have haccepted : start.accepted MemoryStore.sink ((os ++ .stop :: more).map .occurrence) =
      offeredIn os := by
    rw [List.map_append, accepted_append_stop _ _ _ hown]
    exact accepted_of_dropped hos ⟨rfl, rfl, rfl, rfl, nofun⟩ hdrop
  have hstopped : d.writer.phase = .stopped := stopped_shutdown (ne_nil_ahead_course os nofun)
  have hsettled := settled_course hdrain hblank (os ++ .stop :: more)
  dsimp only at hsettled
  rw [haccepted, ← hwhole] at hsettled
  exact ⟨hstopped, hsettled hreadable hcount' hstopped⟩

end Desk

end SpanRelay

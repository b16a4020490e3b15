import SpanRelay.Proofs.Store.Memory
import SpanRelay.Proofs.Writer.Conservation

/-! # Batches and single writes

However the accepted spans are cut into batches and requests, and whatever requests fail on the way, a
store in memory holds in the end what it would hold if each span had been written by itself, in the
order of acceptance: of each id the last version, as `Span.stored` says, and nothing else
(`stored_as_single_writes`). The requests may fail as often in a row as they are repeated; a store that
is told to fail its next requests fails no more than these (`failsAtMost_failing`). -/

namespace SpanRelay

/-- The record of a span as a store in memory holds it: as it is read from its text, with the members
of every object sorted. -/
def Span.stored (x : Span) : Json := x.toJson.reread.canonical

theorem isSome_parse?_ofSpan {x : Span} (h : x.Readable) :
    (Json.parse? (Document.ofSpan x).body).isSome = true :=
  Option.isSome_iff_exists.2 ⟨_, parse?_body_ofSpan h⟩

theorem MemoryStore.shown_view (index : String) {x : Span} (h : x.Readable) :
    (view index).shown x = x.stored := by
  unfold StoreView.shown view value Span.stored
  dsimp only
  rw [parse?_body_ofSpan h, Option.map_some, Option.getD_some]

theorem MemoryStore.after_of_readable (index : String) {spans : List Span}
    (h : ∀ x ∈ spans, x.Readable) {before : String → Option Json} {id : String}
    (hb : before id = none) :
    (view index).after spans before id = (lastVersion? id spans).map Span.stored := by
  have hshown : (lastVersion? id spans).map (view index).shown =
      (lastVersion? id spans).map Span.stored :=
    Option.map_congr fun x hx => shown_view index (h x (mem_of_lastVersion? hx).1)
  unfold StoreView.after
  rw [hshown, hb, Option.or_none]

namespace Desk

variable {σ : Type} {sink : Sink σ} {d : Desk σ}

/-! ### Histories without changes from outside -/

theorem history_append (is js : List (Incident σ)) :
    d.history sink (is ++ js) = (d.history sink is).history sink js := List.foldl_append

theorem history_occurrences (os : List Occurrence) :
    d.history sink (os.map .occurrence) = d.course sink os := List.foldl_map

theorem ne_nil_ahead_history (is : List (Incident σ)) (h : ∀ b ∈ d.writer.ahead, b ≠ []) :
    ∀ b ∈ (d.history sink is).writer.ahead, b ≠ [] := by
  induction is generalizing d with
  | nil => exact h
  | cons i is ih =>
    refine ih (d := d.undergo sink i) ?_
    cases i with
    | change => exact h
    | occurrence o => exact ne_nil_ahead_course [o] h

/-- However the history went, shutting down makes the writer stop. -/
theorem exists_history_shutdown (is : List (Incident σ)) (h : ∀ b ∈ d.writer.ahead, b ≠ []) :
    ∃ more : List Occurrence, (∀ o ∈ more, o.isOwn = true) ∧
      (d.history sink is).shutdown sink =
        d.history sink (is ++ (Occurrence.stop :: more).map .occurrence) ∧
      ((d.history sink is).shutdown sink).writer.phase = .stopped := by
  obtain ⟨more, hown, hmore⟩ := exists_course_shutdown sink (d.history sink is)
  refine ⟨more, hown, ?_, stopped_shutdown (ne_nil_ahead_history is h)⟩
  rw [hmore, history_append, history_occurrences]

end Desk

/-! ### Requests that are to fail -/

namespace MemoryStore

theorem failingRequests_indexAll (index : String) (ds : List Document) (m : MemoryStore) :
    (indexAll index m ds).1.failingRequests = m.failingRequests := by
  induction ds generalizing m with
  | nil => rfl
  | cons d ds ih =>
    have hone : (indexOne index m d).1.failingRequests = m.failingRequests := by
      unfold indexOne
      split
      · rfl
      · split <;> rfl
    exact (ih _).trans hone

theorem failingRequests_bulkIndex (index : String) (ds : List Document) (m : MemoryStore) :
    [(m.bulkIndex index ds).2].countP (fun a => !a.isOk) +
      (m.bulkIndex index ds).1.failingRequests = m.failingRequests := by
  rcases Nat.eq_zero_or_pos m.failingRequests with h0 | hpos
  · have hall := failingRequests_indexAll index ds { m with requests := m.requests ++ [ds.length] }
    unfold bulkIndex
    dsimp only
    rw [if_neg (by omega)]
    exact (Nat.zero_add _).trans hall
  · rw [bulkIndex_failed index ds hpos]
    change 1 + (m.failingRequests - 1) = m.failingRequests
    omega

end MemoryStore

namespace Desk

variable {d : Desk MemoryStore}

theorem countP_answer? (o : Occurrence) :
    (d.answer? MemoryStore.sink (.occurrence o)).toList.countP (fun a => !a.isOk) +
      (d.occur MemoryStore.sink o).store.failingRequests = d.store.failingRequests := by
  have still : d.answer? MemoryStore.sink (.occurrence o) = none →
      (d.occur MemoryStore.sink o).store.failingRequests = d.store.failingRequests →
      (d.answer? MemoryStore.sink (.occurrence o)).toList.countP (fun a => !a.isOk) +
        (d.occur MemoryStore.sink o).store.failingRequests = d.store.failingRequests := by
    intro hnone hstore
    rw [hnone]
    exact (Nat.zero_add _).trans hstore
  cases o with
  | move =>
    by_cases hwait : ∃ wake delivery, d.writer.phase = .waiting wake delivery ∧ wake ≤ d.now
    · obtain ⟨wake, delivery, hp, hw⟩ := hwait
      rw [occur_of_waiting hp hw, answer?_of_waiting hp hw, hear_eq]
      exact MemoryStore.failingRequests_bulkIndex _ _ _
    · refine still (answer?_of_not_waiting hwait) ?_
      unfold occur
      cases hstep : d.step? MemoryStore.sink with
      | none => rfl
      | some d' =>
        have h := step_of_step? hstep
        cases h with
        | hear hp hw => exact absurd ⟨_, _, hp, hw⟩ hwait
        | send | begin | take | close | stop => rfl
  | offer | wait | stop | orphan => exact still rfl rfl

theorem countP_answers_le (os : List Occurrence) (d : Desk MemoryStore) :
    (d.answers MemoryStore.sink (os.map .occurrence)).countP (fun a => !a.isOk) ≤
      d.store.failingRequests := by
  induction os generalizing d with
  | nil => exact Nat.zero_le _
  | cons o os ih =>
    have hfirst := countP_answer? (d := d) o
    have hrest := ih (d.occur MemoryStore.sink o)
    rw [List.map_cons, answers, List.countP_append]
    exact le_trans (Nat.add_le_add_left hrest _) hfirst.le

/-- **A store that is told to fail** its next requests fails no more than these. -/
theorem failsAtMost_failing (os : List Occurrence) (d : Desk MemoryStore) :
    FailsAtMost d.store.failingRequests (d.answers MemoryStore.sink (os.map .occurrence)) := by
  intro run hrun hfails
  have hall : run.countP (fun a => !a.isOk) = run.length := List.countP_eq_length.2 fun a ha => by
    rw [hfails a ha]
    rfl
  rw [← hall]
  exact hrun.sublist.countP_le.trans (countP_answers_le os d)

end Desk

/-! ### The refinement -/

/-- **Batched writing stores what single writes store.** The writer takes at least one element at a
time out of the queue, and the store is empty for the index, rejects no document, and is changed from
outside in nothing but which requests it is to fail and how long it takes. Property values nest as deep
as the reader allows, and no more requests fail in a row than are repeated. When the writer has stopped,
the store holds for the index what writing each accepted span by itself would have left: of each id the
last accepted version, and nothing of other ids. However the history went, shutting down makes the
writer stop. -/
theorem stored_as_single_writes {config : Config} (hdrain : 0 < config.drainLength)
    {store : MemoryStore} (hempty : store.entries config.indexName = [])
    (haccepts : store.failingDocuments = .empty) {is : List (Incident MemoryStore)}
    (hchanges : ∀ f, .change f ∈ is → ∀ m : MemoryStore,
      (f m).documents = m.documents ∧ (f m).failingDocuments = m.failingDocuments) :
    let start : Desk MemoryStore := .of config.queue config.writer store
    let d := start.history MemoryStore.sink is
    let accepted := start.accepted MemoryStore.sink is
    let single := (store.failNext 0).writeEach config.indexName accepted
    ((∀ x ∈ accepted, x.Readable) →
      FailsAtMost config.maxWriteRetries (start.answers MemoryStore.sink is) →
      d.writer.phase = .stopped →
      (d.store.entries config.indexName).Perm (single.entries config.indexName) ∧
      ∀ id, d.store.document? config.indexName id = (lastVersion? id accepted).map Span.stored) ∧
    ∃ more : List Occurrence, (∀ o ∈ more, o.isOwn = true) ∧
      d.shutdown MemoryStore.sink =
        start.history MemoryStore.sink (is ++ (Occurrence.stop :: more).map .occurrence) ∧
      (d.shutdown MemoryStore.sink).writer.phase = .stopped := by
  intro start d accepted single
  refine ⟨fun hreadable hrow hp => ?_, Desk.exists_history_shutdown is nofun⟩
  have hgood : ∀ x ∈ accepted, (Json.parse? (Document.ofSpan x).body).isSome = true :=
    fun x hx => isSome_parse?_ofSpan (hreadable x hx)
  have hcalm := MemoryStore.calm_of_entries hempty haccepts
  have hharmless : ∀ i ∈ is, i.Harmless (MemoryStore.view config.indexName) := by
    intro i hi
    cases i with
    | occurrence => trivial
    | change f => exact MemoryStore.harmless_change _ (hchanges f hi)
  obtain ⟨hend, hcontent⟩ := Desk.content_of_stopped config.queueCapacity config.queueMaxBytes
    config.writer.settings config.writer.backoff hcalm (MemoryStore.faltering_memory _) hdrain is
    hharmless hgood hrow hp
  obtain ⟨hsingle, hcontent'⟩ := MemoryStore.content_writeEach accepted
    (m := store.failNext 0) hcalm rfl hgood
  refine ⟨Map.Table.perm_rows hend.2 hsingle.2 fun id => ?_, fun id => ?_⟩
  · exact (MemoryStore.get?_stock _ _ _).trans
      (((hcontent id).trans (hcontent' id).symm).trans (MemoryStore.get?_stock _ _ _).symm)
  · exact (hcontent id).trans
      (MemoryStore.after_of_readable _ hreadable (MemoryStore.document?_of_entries hempty id))

/-- A span is accepted in two versions around a move of the writer, and the store fails the first two
requests. -/
theorem stored_after_failures :
    let store := MemoryStore.empty.failNext 2
    let start : Desk MemoryStore := .of Config.default.queue Config.default.writer store
    let os : List Occurrence :=
      [.offer (.bare "a"), .move, .offer (.bare "b"), .offer (Span.bare "a").abandon]
    let spans := [.bare "a", .bare "b", (Span.bare "a").abandon]
    ∃ more, let d := start.history MemoryStore.sink ((os ++ Occurrence.stop :: more).map .occurrence)
      d.writer.phase = .stopped ∧
      (d.store.entries "sessions").Perm
        (((store.failNext 0).writeEach "sessions" spans).entries "sessions") ∧
      ∀ id, d.store.document? "sessions" id = (lastVersion? id spans).map Span.stored := by
  intro store start os spans
  have hdrain : 0 < Config.default.drainLength := by decide
  have hchanges : ∀ (ps : List Occurrence) (f : MemoryStore → MemoryStore),
      .change f ∈ ps.map Incident.occurrence → ∀ m : MemoryStore,
        (f m).documents = m.documents ∧ (f m).failingDocuments = m.failingDocuments := by
    intro ps f hf
    obtain ⟨o, -, ho⟩ := List.mem_map.1 hf
    cases ho
  have hempty : store.entries Config.default.indexName = [] := rfl
  obtain ⟨-, more, hown, hmore, hstop⟩ :=
    stored_as_single_writes hdrain hempty rfl (hchanges os)
  rw [hmore, ← List.map_append] at hstop
  have haccepted : start.accepted MemoryStore.sink
      ((os ++ Occurrence.stop :: more).map .occurrence) = spans := by
    rw [List.map_append, Desk.accepted_append_stop _ _ _ hown]
    exact Desk.accepted_of_queued MemoryStore.sink (by decide +kernel)
  have hreadable : ∀ x ∈ spans, x.Readable := by
    have hnone : ∀ x ∈ spans, x.before = none ∧ x.after = none := by
      intro x hx
      simp only [spans, List.mem_cons, List.not_mem_nil, or_false] at hx
      rcases hx with rfl | rfl | rfl <;> exact ⟨rfl, rfl⟩
    intro x hx s hs
    obtain ⟨hbefore, hafter⟩ := hnone x hx
    rw [hbefore, hafter] at hs
    rcases hs with hs | hs <;> cases hs
  obtain ⟨hend, -⟩ :=
    stored_as_single_writes hdrain hempty rfl (hchanges (os ++ Occurrence.stop :: more))
  have h := hend (by rw [haccepted]; exact hreadable)
    (fun run hrun hf => (Desk.failsAtMost_failing _ start run hrun hf).trans (by decide)) hstop
  rw [haccepted] at h
  exact ⟨more, hstop, h⟩

end SpanRelay

import SpanRelay.Proofs.Writer.Flush
import SpanRelay.Store.Http

/-! # Flushes into a store behind a server

Whatever the server replies, the answers of an `HttpStore` have one item for each document
(`aligned_http`). The items carry the ids of the reply, though, and a reply may leave them out or
have others. If it repeats the ids of the documents where it has any (`Echoes`), the answer is
faithful (`faithful_answerOf`); `flush_counts_once_iff` says that a flush counts every span once
exactly if all answers are. -/

namespace SpanRelay

namespace Bulk

theorem length_align (r : Reply) (ds : List Document) : (align r ds).items.length = ds.length := by
  simp only [align, List.length_append, List.length_zipWith, List.length_map, List.length_drop]
  omega

theorem reply_of_answerOf {ds : List Document} {exchange : Http.Exchange} {response : BulkResponse}
    (h : (answerOf ds exchange).2 = .ok response) :
    ∃ status body r, exchange = .reply status body ∧
      (Json.read? body.toList).bind Reply.ofJson? = some r ∧ response = align r ds := by
  unfold answerOf at h
  split at h
  · cases h
  · cases h
  · split at h
    · split at h
      · rename_i r hr
        cases h
        exact ⟨_, _, r, rfl, hr, rfl⟩
      · cases h
    · cases h

theorem aligned_answerOf (ds : List Document) (exchange : Http.Exchange) :
    (answerOf ds exchange).2.Aligned ds := by
  intro response h
  obtain ⟨-, -, r, -, -, rfl⟩ := reply_of_answerOf h
  exact length_align r ds

/-- The ids in the reply are those of the documents in their places. -/
def Reply.Echoes (r : Reply) (ds : List Document) : Prop :=
  ∀ p ∈ ds.zip r.entries, ∀ v, verdict? p.2 = some v → v.id = none ∨ v.id = some p.1.id

theorem id_itemOf {d : Document} {entry : Map.Table String Verdict}
    (h : ∀ v, verdict? entry = some v → v.id = none ∨ v.id = some d.id) :
    (itemOf d entry).id = d.id := by
  unfold itemOf
  cases hv : verdict? entry with
  | none => rfl
  | some v =>
    have hid : v.id.getD d.id = d.id := by rcases h v hv with h | h <;> rw [h] <;> rfl
    have hitem : (v.item d).id = v.id.getD d.id := by
      unfold Verdict.item
      dsimp only
      split
      · rfl
      · split <;> rfl
    exact hitem.trans hid

theorem id_align {errors : Bool} {ds : List Document} {entries : List (Map.Table String Verdict)}
    (h : Reply.Echoes ⟨errors, entries⟩ ds) :
    ∀ p ∈ ds.zip (align ⟨errors, entries⟩ ds).items, p.2.id = p.1.id := by
  induction ds generalizing entries with
  | nil => simp
  | cons d ds ih =>
    cases entries with
    | nil =>
      have ih := @ih [] (by simp [Reply.Echoes])
      simp only [align, List.zipWith_nil_right, List.nil_append, List.length_nil, List.drop_zero]
        at ih ⊢
      intro p hp
      rcases List.mem_cons.1 hp with rfl | hp
      · rfl
      · exact ih p hp
    | cons entry entries =>
      have hrest : Reply.Echoes ⟨errors, entries⟩ ds := fun p hp => h p (List.mem_cons_of_mem _ hp)
      intro p hp
      rcases List.mem_cons.1 hp with rfl | hp
      · exact id_itemOf (h (d, entry) List.mem_cons_self)
      · exact ih hrest p hp

/-- **An answer is faithful** if the reply echoes the documents. -/
theorem faithful_answerOf {h : Hearing} (hd : (h.delivery.documents.map Document.id).Nodup)
    {exchange : Http.Exchange} (hans : h.answer = (answerOf h.delivery.documents exchange).2)
    (he : ∀ status body r, exchange = .reply status body →
      (Json.read? body.toList).bind Reply.ofJson? = some r → r.Echoes h.delivery.documents) :
    h.Faithful := by
  refine Hearing.faithful_of_ids hd (by rw [hans]; exact aligned_answerOf _ _) ?_
  intro response hok p hp _
  rw [hans] at hok
  obtain ⟨status, body, r, hexchange, hr, rfl⟩ := reply_of_answerOf hok
  exact id_align (he status body r hexchange hr) p hp

end Bulk

theorem aligned_http : HttpStore.sink.Aligned := by
  intro index ds s
  change (s.bulkIndex index ds).2.2.Aligned ds
  unfold HttpStore.bulkIndex
  split
  · rename_i hempty
    rw [List.isEmpty_iff.1 hempty]
    rintro response ⟨⟩
    rfl
  · exact Bulk.aligned_answerOf _ _

/-- **What a flush counts**: it ends, the counters grow by the documents that its answers count, and
each span is counted once exactly if every answer allows to send again just the documents whose own
items are worth it. -/
theorem flush_counts_once_iff {d : Desk HttpStore} (ha : d.Alone) (hp : d.writer.phase = .ready)
    {spans : List Span} (hspans : (spans.map Span.id).Nodup) :
    let flushing := d.enqueueSpans spans
    let flushed := flushing.run HttpStore.sink none
    let heard := flushing.heard HttpStore.sink none
    flushed.writer.phase = .ready ∧ flushed.writer.ahead = [] ∧
    flushed.account.tally = d.account.tally.count ((ledger heard).map Prod.snd) ∧
    ((∀ span ∈ spans, ((ledger heard).map fun p => p.1.id).count span.id = 1) ↔
      ∀ h ∈ heard, h.Faithful) :=
  Desk.flush_accounts aligned_http ha hp hspans

/-- A writer with a store whose server gives the replies. -/
def serving (bodies : List String) : Desk HttpStore :=
  .of Config.default.queue Config.default.writer
    ⟨StoreConfig.default, ⟨bodies.map (Http.Exchange.reply 200), []⟩⟩

theorem alone_serving (bodies : List String) : (serving bodies).Alone where
  live := ⟨rfl, rfl, rfl, rfl, nofun⟩
  queue := rfl

/-- Of three documents the server takes the first one, is too busy for the second one and rejects the
third one. Then it says nothing about the second one, and then it takes it. -/
theorem flush_counts_once_busy :
    let spans : List Span := [.bare "a", .bare "b", .bare "c"]
    let d := serving [
      "\x7b\"items\":[\x7b\"index\":\x7b\"_id\":\"a\",\"status\":201\x7d\x7d," ++
        "\x7b\"index\":\x7b\"_id\":\"b\",\"status\":503,\"error\":\"busy\"\x7d\x7d," ++
        "\x7b\"index\":\x7b\"status\":400,\"error\":\"mapping\"\x7d\x7d]\x7d",
      "\x7b\"items\":[]\x7d", "\x7b\"items\":[\x7b\"index\":\x7b\"status\":201\x7d\x7d]\x7d"]
    let flushed := (d.enqueueSpans spans).run HttpStore.sink none
    let heard := (d.enqueueSpans spans).heard HttpStore.sink none
    d.Alone ∧ d.writer.phase = .ready ∧ (spans.map Span.id).Nodup ∧
      heard.map (fun h => h.delivery.documents.map Document.id) = [["a", "b", "c"], ["b"], ["b"]] ∧
      (∀ span ∈ spans, ((ledger heard).map fun p => p.1.id).count span.id = 1) ∧
      flushed.account.tally.flushed = 2 ∧ flushed.account.tally.lost = 1 := by
  intro spans d flushed heard
  have ha : d.Alone := alone_serving _
  have hspans : (spans.map Span.id).Nodup := by decide
  -- all documents fit into one request, as any three of their lengths do
  have hroom : ∀ x y z : Span,
      [x, y, z].map (fun span => (Document.ofSpan span).length) = [306, 306, 306] →
      batches d.writer.settings.limits [x, y, z] = [[x, y, z].map Document.ofSpan] := by
    intro x y z h
    simp only [List.map_cons, List.map_nil, List.cons.injEq] at h
    obtain ⟨hx, hy, hz, -⟩ := h
    refine batches_of_room (List.cons_ne_nil _ _) (by decide : 2 ≤ 3) ?_ (by decide : 3 < 500) ?_
    · have hlimit : d.writer.settings.limits.singleThreshold = 2097152 := rfl
      simp [hx, hy, hz, hlimit]
    · have hlimit : d.writer.settings.limits.maxBytes = 10485760 := rfl
      simp [totalLength, hx, hy, hz, hlimit]
  have hlength : spans.map (fun span => (Document.ofSpan span).length) = [306, 306, 306] := by
    simp only [Document.length_ofSpan]
    decide +kernel
  have hahead : d.enqueueSpans spans = { d with writer := { d.writer with
      ahead := batches d.writer.settings.limits spans } } := rfl
  rw [hroom _ _ _ hlength] at hahead
  obtain ⟨hechoes, hsent, htally⟩ : (∀ h ∈ heard, (h.delivery.documents.map Document.id).Nodup ∧
        ∀ response ∈ h.answer.toOption, response.items.length = h.delivery.documents.length ∧
          ∀ p ∈ h.delivery.documents.zip response.items, p.2.id = p.1.id) ∧
      heard.map (fun h => h.delivery.documents.map Document.id) = [["a", "b", "c"], ["b"], ["b"]] ∧
      flushed.account.tally.flushed = 2 ∧ flushed.account.tally.lost = 1 := by
    simp only [heard, flushed, hahead]
    decide +kernel
  have hfaithful : ∀ h ∈ heard, h.Faithful := by
    intro h hh
    obtain ⟨hnodup, hall⟩ := hechoes h hh
    have hresponse : ∀ response, h.answer = .ok response → response ∈ h.answer.toOption :=
      fun response hok => by rw [hok]; rfl
    exact Hearing.faithful_of_ids hnodup (fun response hok => (hall response (hresponse response hok)).1)
      fun response hok p hp _ => (hall response (hresponse response hok)).2 p hp
  obtain ⟨-, -, -, hiff⟩ := flush_counts_once_iff ha rfl hspans
  exact ⟨ha, rfl, hspans, hsent, hiff.2 hfaithful, htally⟩

/-- The item has another id: the document is not sent again, and it is not counted. -/
theorem foreign_id_not_counted :
    let d := serving [
      "\x7b\"items\":[\x7b\"index\":\x7b\"_id\":\"b\",\"status\":503,\"error\":\"busy\"\x7d\x7d]\x7d"]
    let flushed := (d.enqueueSpans [.bare "a"]).run HttpStore.sink none
    let heard := (d.enqueueSpans [.bare "a"]).heard HttpStore.sink none
    flushed.writer.phase = .ready ∧ flushed.writer.ahead = [] ∧ flushed.account.tally = .zero ∧
      ¬∀ span ∈ [Span.bare "a"], ((ledger heard).map fun p => p.1.id).count span.id = 1 := by
  decide +kernel

end SpanRelay

import SpanRelay.Proofs.Record.Written
import SpanRelay.Proofs.Writer.Faltering
import SpanRelay.Store.Memory

/-! # What a store in memory holds

The documents of one index are a table by ids, the `stock` of the index (`get?_stock`, `stock_insert`).
If no document is rejected and the bodies can be read, a request sets all of its documents in the stock
or fails as a whole (`bulkIndex_accepted`), so such a store is faltering (`faltering_memory`). Two stocks
in which the same is found have the same entries (`perm_rows`). -/

namespace SpanRelay

/-! ### Tables -/

namespace Map.Table

variable {κ α : Type} [DecidableEq κ]

theorem perm_rows {t u : Table κ α} (ht : t.keys.Nodup) (hu : u.keys.Nodup)
    (h : ∀ key, t.get? key = u.get? key) : t.rows.Perm u.rows := by
  have hrow : ∀ {t u : Table κ α}, t.keys.Nodup → (∀ key, t.get? key = u.get? key) →
      ∀ row ∈ t.rows, row ∈ u.rows := fun ht h row hrow =>
    mem_rows_of_get? ((h row.1).symm.trans (get?_of_mem_rows ht hrow))
  exact (List.perm_ext_iff_of_nodup (List.Nodup.of_map _ ht) (List.Nodup.of_map _ hu)).2 fun row =>
    ⟨hrow ht h row, hrow hu (fun key => (h key).symm) row⟩

end Map.Table

theorem StoreView.among_singleton {σ β : Type} (v : StoreView σ β) (d : Document) (id : String) :
    v.among [d] id = if id = d.id then some (v.render d) else none := by
  unfold among
  by_cases h : id = d.id
  · simp [h]
  · simp [h, Ne.symm h]

namespace MemoryStore

/-- The documents of an index, by ids. -/
def stock (m : MemoryStore) (index : String) : Map.Table String Json := ⟨m.entries index⟩

variable {m : MemoryStore} {index : String}

theorem get?_stock (m : MemoryStore) (index id : String) :
    (m.stock index).get? id = m.document? index id := by
  unfold stock document? entries Map.Table.get?
  dsimp only
  induction m.documents.rows with
  | nil => rfl
  | cons row rows ih =>
    obtain ⟨⟨i, d⟩, v⟩ := row
    by_cases hi : i = index
    · subst hi
      by_cases hd : d = id
      · simp [hd]
      · simpa [hd] using ih
    · simpa [hi] using ih

theorem document?_of_entries (h : m.entries index = []) (id : String) :
    m.document? index id = none := by
  rw [← get?_stock]
  unfold stock Map.Table.get?
  rw [h]
  rfl

theorem stock_insert (m : MemoryStore) (index id : String) (v : Json) :
    stock { m with documents := m.documents.insert (index, id) v } index =
      (m.stock index).insert id v := by
  have hcontains : (m.stock index).contains id = m.documents.contains (index, id) := by
    unfold Map.Table.contains
    rw [get?_stock]
    rfl
  have hupdate : ∀ rows : List ((String × String) × Json),
      ((rows.map fun row => if row.1 = (index, id) then ((index, id), v) else row).filter
          fun row => row.1.1 = index).map (fun row => (row.1.2, row.2)) =
        ((rows.filter fun row => row.1.1 = index).map fun row => (row.1.2, row.2)).map
          fun row => if row.1 = id then (id, v) else row := by
    intro rows
    induction rows with
    | nil => rfl
    | cons row rows ih =>
      obtain ⟨⟨i, d⟩, w⟩ := row
      by_cases hi : i = index
      · subst hi
        by_cases hd : d = id
        · subst hd
          simpa using ih
        · simpa [hd] using ih
      · simpa [hi] using ih
  unfold Map.Table.insert
  rw [hcontains]
  split
  · exact congrArg Map.Table.mk (hupdate _)
  · unfold stock entries
    dsimp only
    simp

/-! ### Requests -/

/-- The value of a document, and `null` if it has none. -/
def value (d : Document) : Json := ((Json.parse? d.body).map Json.canonical).getD .null

/-- The store as the documents of an index are seen by ids. Nothing is in its way if no document is
to be rejected. -/
def view (index : String) : StoreView MemoryStore Json where
  content m id := m.document? index id
  render := value
  calm m := m.failingDocuments = .empty ∧ (m.stock index).keys.Nodup

theorem calm_of_entries (h : m.entries index = []) (hf : m.failingDocuments = .empty) :
    (view index).calm m := by
  refine ⟨hf, ?_⟩
  unfold stock Map.Table.keys
  rw [h]
  exact List.nodup_nil

theorem harmless_change {f : MemoryStore → MemoryStore} (index : String)
    (h : ∀ m, (f m).documents = m.documents ∧ (f m).failingDocuments = m.failingDocuments) :
    (Incident.change f).Harmless (view index) := by
  intro m hm
  obtain ⟨hdocs, hfails⟩ := h m
  have hstock : (f m).stock index = m.stock index := by
    unfold stock entries
    rw [hdocs]
  exact ⟨⟨hfails.trans hm.1, hstock ▸ hm.2⟩,
    funext fun id => congrArg (Map.Table.get? · (index, id)) hdocs⟩

/-- The documents of a request that are set one after the other. -/
def put (index : String) (m : MemoryStore) (ds : List Document) : MemoryStore :=
  { m with documents := ds.foldl (fun t d => t.insert (index, d.id) (value d)) m.documents }

theorem indexAll_eq_put (hf : m.failingDocuments = .empty) (ds : List Document)
    (hd : ∀ d ∈ ds, (Json.parse? d.body).isSome = true) :
    indexAll index m ds = (m.put index ds, ds.map fun d => .ok d.id) := by
  induction ds generalizing m with
  | nil => rfl
  | cons d ds ih =>
    obtain ⟨v, hv⟩ := Option.isSome_iff_exists.1 (hd d List.mem_cons_self)
    have hone : indexOne index m d = (m.put index [d], .ok d.id) := by
      have hvalue : value d = v.canonical := by
        unfold value
        rw [hv]
        rfl
      have hfine : m.failingDocuments.get? d.id = none := by
        rw [hf]
        rfl
      unfold indexOne
      rw [hfine]
      dsimp only
      rw [hv]
      dsimp only [put, List.foldl_cons, List.foldl_nil]
      rw [hvalue]
    have hrest := @ih (m.put index [d]) hf fun d' hd' => hd d' (List.mem_cons_of_mem _ hd')
    rw [indexAll, hone]
    dsimp only
    rw [hrest]
    rfl

theorem content_put {ds : List Document} (hnodup : (ds.map Document.id).Nodup)
    (hm : (m.stock index).keys.Nodup) : ((m.put index ds).stock index).keys.Nodup ∧
      ∀ id, (m.put index ds).document? index id =
        ((view index).among ds id).or (m.document? index id) := by
  induction ds generalizing m with
  | nil => exact ⟨hm, fun _ => rfl⟩
  | cons d ds ih =>
    obtain ⟨hd, hds⟩ := List.nodup_cons.1 hnodup
    have hstock : (m.put index [d]).stock index = (m.stock index).insert d.id (value d) :=
      stock_insert m index d.id (value d)
    obtain ⟨hkeys, hcontent⟩ := @ih (m.put index [d]) hds
      (by rw [hstock]; exact Map.Table.nodup_keys_insert hm _ _)
    refine ⟨hkeys, fun id => (hcontent id).trans ?_⟩
    rw [← get?_stock (m.put index [d]), hstock, Map.Table.get?_insert, get?_stock]
    have hcons : (view index).among (d :: ds) id = (if id = d.id then some (value d) else none).or
        ((view index).among ds id) :=
      ((view index).among_append [d] ds id).trans (by rw [StoreView.among_singleton]; rfl)
    rw [hcons]
    by_cases hid : id = d.id
    · have hnone : (view index).among ds id = none := by
        rw [StoreView.among_eq_none, hid]
        exact hd
      rw [if_pos hid, if_pos hid, hnone]
      rfl
    · rw [if_neg hid, if_neg hid, Option.none_or]

/-- **A request that is not to fail** sets all of its documents. -/
theorem bulkIndex_accepted {ds : List Document} (hm : (view index).calm m)
    (h0 : m.failingRequests = 0) (hnodup : (ds.map Document.id).Nodup)
    (hd : ∀ d ∈ ds, (Json.parse? d.body).isSome = true) :
    (view index).calm (m.bulkIndex index ds).1 ∧ (m.bulkIndex index ds).1.failingRequests = 0 ∧
      (∃ response, (m.bulkIndex index ds).2 = .ok response ∧ response.hasFailures = false) ∧
      ∀ id, (m.bulkIndex index ds).1.document? index id =
        ((view index).among ds id).or (m.document? index id) := by
  have hput : m.bulkIndex index ds =
      (put index { m with requests := m.requests ++ [ds.length] } ds,
        .ok ⟨ds.map fun d => .ok d.id⟩) := by
    unfold bulkIndex
    dsimp only
    rw [if_neg (by omega)]
    have hall := @indexAll_eq_put { m with requests := m.requests ++ [ds.length] } index hm.1 ds hd
    rw [hall]
  have hresponse : (BulkResponse.mk (ds.map fun d => .ok d.id)).hasFailures = false := by
    unfold BulkResponse.hasFailures BulkResponse.failures
    rw [List.filter_eq_nil_iff.2]
    · rfl
    · intro i hi
      obtain ⟨d, -, rfl⟩ := List.mem_map.1 hi
      exact Bool.false_ne_true
  obtain ⟨hkeys, hcontent⟩ :=
    @content_put { m with requests := m.requests ++ [ds.length] } index ds hnodup hm.2
  rw [hput]
  exact ⟨⟨hm.1, hkeys⟩, h0, ⟨_, rfl, hresponse⟩, hcontent⟩

theorem bulkIndex_failed (index : String) (ds : List Document) (h : 0 < m.failingRequests) :
    m.bulkIndex index ds = ({ m with
      requests := m.requests ++ [ds.length]
      failingRequests := m.failingRequests - 1 }, .error (.server "injected failure")) := by
  unfold bulkIndex
  exact if_pos h

/-- **A store in memory** falters, if no document is to be rejected. -/
theorem faltering_memory (index : String) :
    sink.Faltering index (view index) fun d => (Json.parse? d.body).isSome = true where
  receive _ _ _ hm := ⟨hm, rfl⟩
  answer ds m hm hnodup hd := by
    rcases Nat.eq_zero_or_pos m.failingRequests with h0 | hpos
    · obtain ⟨hcalm, -, hok, hcontent⟩ := bulkIndex_accepted hm h0 hnodup hd
      exact ⟨hcalm, Or.inr ⟨hok, hcontent⟩⟩
    · have hfailed := bulkIndex_failed index ds hpos
      unfold sink
      dsimp only
      rw [hfailed]
      exact ⟨hm, Or.inl ⟨_, rfl, rfl, rfl⟩⟩

/-! ### One document after the other -/

/-- The store after some spans were written one by one. -/
def writeEach (index : String) (m : MemoryStore) (spans : List Span) : MemoryStore :=
  spans.foldl (fun m x => (m.bulkIndex index [.ofSpan x]).1) m

theorem content_writeEach (spans : List Span) (hm : (view index).calm m)
    (h0 : m.failingRequests = 0)
    (hd : ∀ x ∈ spans, (Json.parse? (Document.ofSpan x).body).isSome = true) :
    (view index).calm (m.writeEach index spans) ∧ ∀ id, (m.writeEach index spans).document? index id =
      (view index).after spans (m.document? index) id := by
  induction spans generalizing m with
  | nil => exact ⟨hm, fun _ => rfl⟩
  | cons x spans ih =>
    have hx : ∀ d ∈ [Document.ofSpan x], (Json.parse? d.body).isSome = true := by
      intro d hmem
      rw [List.mem_singleton.1 hmem]
      exact hd x List.mem_cons_self
    have hnodup : ([Document.ofSpan x].map Document.id).Nodup := List.nodup_singleton _
    obtain ⟨hcalm, hfailing, -, hcontent⟩ := bulkIndex_accepted hm h0 hnodup hx
    obtain ⟨hcalm', hcontent'⟩ := ih hcalm hfailing fun y hy => hd y (List.mem_cons_of_mem _ hy)
    refine ⟨hcalm', fun id => (hcontent' id).trans ?_⟩
    have hsplit := Desk.after_append (view index) [x] spans (m.document? index)
    rw [List.singleton_append] at hsplit
    rw [hsplit]
    have hone : ((m.bulkIndex index [.ofSpan x]).1.document? index) =
        (view index).after [x] (m.document? index) := by
      funext id
      rw [hcontent id, StoreView.among_singleton]
      unfold StoreView.after lastVersion?
      by_cases hid : id = x.id
      · simp [hid, Document.ofSpan, StoreView.shown]
      · simp [hid, Ne.symm hid, Document.ofSpan]
    rw [hone]

end MemoryStore

end SpanRelay

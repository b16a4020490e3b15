import Mathlib.Data.List.Chain
import SpanRelay.Proofs.Writer.Sending
import SpanRelay.Store.Scripted

/-! # Limits of requests

A document of a flush is gathered, or it is sent alone: because it is large, or because too few spans
came together (`BatchLimits.Gathers`). Whatever the limits are:

* a request is one document that is not gathered, or holds gathered documents only, and no more of
  them than the limits allow unless it is just one;
* the gathered documents stay in their order across requests;
* a request of gathered documents is not sent before it is full for the next one.

`Orderly` is what one more document keeps (`orderly_add`), and `orderly_batches` what it comes to in the
end. A writer whose requests are all confirmed sends what `batches` forms, so `flush_requests` says the
same of the requests that it sends. -/

namespace SpanRelay

namespace BatchLimits

/-- A document is gathered in a flush of `count` spans. -/
def Gathers (l : BatchLimits) (count : Nat) (d : Document) : Prop :=
  l.minBulkLength ≤ count ∧ d.length ≤ l.singleThreshold

instance (l : BatchLimits) (count : Nat) : DecidablePred (l.Gathers count) := fun d =>
  inferInstanceAs (Decidable (l.minBulkLength ≤ count ∧ d.length ≤ l.singleThreshold))

/-- The requests among some that hold gathered documents. -/
def accumulated (l : BatchLimits) (count : Nat) (requests : List (List Document)) :
    List (List Document) :=
  requests.filter fun b => ∃ d ∈ b, l.Gathers count d

/-- The documents of a request fill it. -/
def Full (l : BatchLimits) (b : List Document) : Prop :=
  l.maxCount ≤ b.length ∨ l.maxBytes ≤ totalLength b

/-- The documents of a request fill it, or do so together with the first one of the next request. -/
def FullFor (l : BatchLimits) (b next : List Document) : Prop :=
  l.Full b ∨ ∃ d, next.head? = some d ∧ l.maxBytes < totalLength b + d.length

/-- A request holds gathered documents, no more than are allowed unless it is just one. -/
structure Gathered (l : BatchLimits) (count : Nat) (b : List Document) : Prop where
  gathers : ∀ d ∈ b, l.Gathers count d
  fits : 1 < b.length → b.length ≤ l.maxCount ∧ totalLength b ≤ l.maxBytes

variable {l : BatchLimits} {count : Nat} {b next : List Document} {d : Document}
  {requests : List (List Document)}

theorem fullFor_nil : l.FullFor b [] ↔ l.Full b := by
  simp [FullFor]

theorem FullFor.append (h : l.FullFor b next) (more : List Document) :
    l.FullFor b (next ++ more) := by
  rcases h with h | ⟨d, hd, hlt⟩
  · exact Or.inl h
  · exact Or.inr ⟨d, by rw [List.head?_append, hd]; rfl, hlt⟩

theorem accumulated_concat_single (h : ¬ l.Gathers count d) :
    l.accumulated count (requests ++ [[d]]) = l.accumulated count requests := by
  simp [accumulated, h]

theorem accumulated_concat (requests : List (List Document)) (hb : b ≠ []) (h : ∀ d ∈ b, l.Gathers count d) :
    l.accumulated count (requests ++ [b]) = l.accumulated count requests ++ [b] := by
  obtain ⟨d, hd⟩ := List.exists_mem_of_ne_nil b hb
  have hsome : ∃ d ∈ b, l.Gathers count d := ⟨d, hd, h d hd⟩
  simp [accumulated, List.filter_append, hsome]

end BatchLimits

/-! ### What one more document keeps -/

namespace Gathering

variable {l : BatchLimits} {count : Nat} {g : Gathering} {d : Document} {ds : List Document}

/-- The documents `ds` were gathered in order. -/
structure Orderly (l : BatchLimits) (count : Nat) (ds : List Document) (g : Gathering) : Prop where
  formed : ∀ b ∈ g.formed, (∃ d, b = [d] ∧ ¬ l.Gathers count d) ∨ l.Gathered count b
  pending : l.Gathered count g.pending
  order : (l.accumulated count g.formed).flatten ++ g.pending = ds.filter (l.Gathers count)
  chain : (l.accumulated count g.formed ++ [g.pending]).IsChain l.FullFor

theorem orderly_empty (l : BatchLimits) (count : Nat) : Orderly l count [] empty where
  formed _ hb := absurd hb List.not_mem_nil
  pending := ⟨fun _ hd => absurd hd List.not_mem_nil, fun h => absurd h (Nat.not_lt_zero 1)⟩
  order := rfl
  chain := List.isChain_singleton _

/-- The ways a document is added, with the reasons for them. -/
theorem add_eq (l : BatchLimits) (count : Nat) (g : Gathering) (d : Document) :
    (¬ l.Gathers count d ∧ g.add l count d = { g with formed := g.formed ++ [[d]] }) ∨
    (l.Gathers count d ∧ ∃ g', g' = (if l.maxBytes < totalLength g.pending + d.length then g.flush else g) ∧
      ((l.Full (g'.push d).pending ∧ g.add l count d = (g'.push d).flush) ∨
        (¬ l.Full (g'.push d).pending ∧ g.add l count d = g'.push d))) := by
  unfold add
  split
  · rename_i h
    refine Or.inl ⟨?_, rfl⟩
    unfold BatchLimits.Gathers
    omega
  · rename_i h
    refine Or.inr ⟨by unfold BatchLimits.Gathers; omega, _, rfl, ?_⟩
    by_cases hfull : l.Full
        ((if l.maxBytes < totalLength g.pending + d.length then g.flush else g).push d).pending
    · exact Or.inl ⟨hfull, if_pos hfull⟩
    · exact Or.inr ⟨hfull, if_neg hfull⟩

theorem orderly_single (h : Orderly l count ds g) (hd : ¬ l.Gathers count d) :
    Orderly l count (ds ++ [d]) { g with formed := g.formed ++ [[d]] } where
  formed b hb := by
    rcases List.mem_append.1 hb with hb | hb
    · exact h.formed b hb
    · exact Or.inl ⟨d, List.mem_singleton.1 hb, hd⟩
  pending := h.pending
  order := by
    have horder := h.order
    dsimp only
    rw [BatchLimits.accumulated_concat_single hd, horder]
    simp [hd]
  chain := by
    have hchain := h.chain
    dsimp only
    rwa [BatchLimits.accumulated_concat_single hd]

theorem flush_of_eq_nil (h : g.pending = []) : g.flush = g := by
  simp [flush, h]

theorem flush_of_ne_nil (h : g.pending ≠ []) : g.flush = ⟨g.formed ++ [g.pending], []⟩ := by
  simp [flush, h]

namespace Orderly

theorem formed_flush (h : Orderly l count ds g) :
    ∀ b ∈ g.flush.formed, (∃ d, b = [d] ∧ ¬ l.Gathers count d) ∨ l.Gathered count b := by
  intro b hb
  by_cases hpending : g.pending = []
  · rw [flush_of_eq_nil hpending] at hb
    exact h.formed b hb
  · rw [flush_of_ne_nil hpending] at hb
    rcases List.mem_append.1 hb with hb | hb
    · exact h.formed b hb
    · rw [List.mem_singleton.1 hb]
      exact Or.inr h.pending

theorem order_flush (h : Orderly l count ds g) :
    (l.accumulated count g.flush.formed).flatten = ds.filter (l.Gathers count) := by
  rw [← h.order]
  by_cases hpending : g.pending = []
  · rw [flush_of_eq_nil hpending, hpending, List.append_nil]
  · rw [flush_of_ne_nil hpending]
    dsimp only
    rw [BatchLimits.accumulated_concat g.formed hpending h.pending.gathers, List.flatten_append,
      List.flatten_singleton]

theorem chain_flush (h : Orderly l count ds g) :
    (l.accumulated count g.flush.formed).IsChain l.FullFor := by
  by_cases hpending : g.pending = []
  · rw [flush_of_eq_nil hpending]
    exact (List.isChain_append.1 h.chain).1
  · rw [flush_of_ne_nil hpending]
    dsimp only
    rw [BatchLimits.accumulated_concat g.formed hpending h.pending.gathers]
    exact h.chain

/-- A request may follow the pending documents if they are full for it. -/
theorem chain_flush_concat (h : Orderly l count ds g) (next : List Document)
    (hnext : g.pending ≠ [] → l.FullFor g.pending next) :
    (l.accumulated count g.flush.formed ++ [next]).IsChain l.FullFor := by
  refine List.isChain_append.2 ⟨h.chain_flush, List.isChain_singleton _, fun a ha b hb => ?_⟩
  obtain rfl : next = b := by simpa using hb
  by_cases hpending : g.pending = []
  · rw [flush_of_eq_nil hpending] at ha
    have hlast := (List.isChain_append.1 h.chain).2.2 a ha g.pending rfl
    rw [hpending] at hlast
    exact hlast.append next
  · rw [flush_of_ne_nil hpending] at ha
    dsimp only at ha
    rw [BatchLimits.accumulated_concat g.formed hpending h.pending.gathers] at ha
    obtain rfl : g.pending = a := by simpa using ha
    exact hnext hpending

end Orderly

theorem orderly_flush (h : Orderly l count ds g) (hfull : g.pending ≠ [] → l.Full g.pending) :
    Orderly l count ds g.flush where
  formed := h.formed_flush
  pending := by
    rw [pending_flush]
    exact (orderly_empty l count).pending
  order := by
    rw [pending_flush, List.append_nil]
    exact h.order_flush
  chain := by
    rw [pending_flush]
    exact h.chain_flush_concat [] fun hne => BatchLimits.fullFor_nil.2 (hfull hne)

theorem orderly_push (h : Orderly l count ds g) (hd : l.Gathers count d)
    (hroom : g.pending ≠ [] → g.pending.length < l.maxCount)
    (hbytes : g.pending ≠ [] → totalLength g.pending + d.length ≤ l.maxBytes) :
    Orderly l count (ds ++ [d]) (g.push d) where
  formed := h.formed
  pending := by
    refine ⟨fun e he => ?_, fun hlen => ?_⟩
    · rcases List.mem_append.1 he with he | he
      · exact h.pending.gathers e he
      · rw [List.mem_singleton.1 he]
        exact hd
    · have hne : g.pending ≠ [] := by
        intro hnil
        simp [push, hnil] at hlen
      have hcount := hroom hne
      have htotal := hbytes hne
      simp only [push, List.length_append, List.length_singleton, totalLength_append,
        totalLength]
      omega
  order := by
    have horder := h.order
    simp only [push, List.filter_append, ← horder, List.append_assoc]
    simp [hd]
  chain := by
    have hchain := h.chain
    rw [List.isChain_append] at hchain ⊢
    obtain ⟨hacc, -, hlast⟩ := hchain
    refine ⟨hacc, List.isChain_singleton _, fun a ha b hb => ?_⟩
    obtain rfl : g.pending ++ [d] = b := by simpa [push] using hb
    exact (hlast a ha g.pending rfl).append [d]

theorem orderly_replace (h : Orderly l count ds g) (hd : l.Gathers count d)
    (hbytes : l.maxBytes < totalLength g.pending + d.length) :
    Orderly l count (ds ++ [d]) (g.flush.push d) := by
  have hpending : (g.flush.push d).pending = [d] := by simp [push]
  refine ⟨h.formed_flush, ?_, ?_, ?_⟩
  · rw [hpending]
    refine ⟨fun e he => ?_, fun hlen => ?_⟩
    · rw [List.mem_singleton.1 he]
      exact hd
    · exact absurd hlen (Nat.lt_irrefl 1)
  · show (l.accumulated count g.flush.formed).flatten ++ (g.flush.push d).pending = _
    rw [hpending, h.order_flush, List.filter_append]
    simp [hd]
  · rw [hpending]
    exact h.chain_flush_concat [d] fun _ => Or.inr ⟨d, rfl, hbytes⟩

/-- There is room for one more document. -/
def HasRoom (l : BatchLimits) (g : Gathering) : Prop := g.pending ≠ [] → ¬ l.Full g.pending

theorem orderly_add (h : Orderly l count ds g) (hroom : g.HasRoom l) (d : Document) :
    Orderly l count (ds ++ [d]) (g.add l count d) ∧ (g.add l count d).HasRoom l := by
  rcases add_eq l count g d with ⟨hd, heq⟩ | ⟨hd, g', rfl, hadd⟩
  · rw [heq]
    exact ⟨orderly_single h hd, hroom⟩
  · have hpush : Orderly l count (ds ++ [d])
        ((if l.maxBytes < totalLength g.pending + d.length then g.flush else g).push d) := by
      split
      · rename_i hbytes
        exact orderly_replace h hd hbytes
      · rename_i hbytes
        refine orderly_push h hd (fun hne => ?_) fun _ => Nat.le_of_not_lt hbytes
        have hfull := hroom hne
        unfold BatchLimits.Full at hfull
        omega
    rcases hadd with ⟨hfull, heq⟩ | ⟨hfull, heq⟩
    · rw [heq]
      refine ⟨orderly_flush hpush fun _ => hfull, fun hne => ?_⟩
      exact absurd (pending_flush _) hne
    · rw [heq]
      exact ⟨hpush, fun _ => hfull⟩

theorem orderly_foldl (more : List Document) (h : Orderly l count ds g) (hroom : g.HasRoom l) :
    Orderly l count (ds ++ more) (more.foldl (add l count) g) := by
  induction more generalizing ds g with
  | nil => simpa using h
  | cons d more ih =>
    obtain ⟨hadd, hadd'⟩ := orderly_add h hroom d
    have hrest := ih hadd hadd'
    rwa [List.append_assoc] at hrest

/-- **All documents**, the pending ones in the last request. -/
theorem orderly_end (l : BatchLimits) (count : Nat) (documents : List Document) :
    let formed := (documents.foldl (add l count) empty).flush.formed
    (∀ b ∈ formed, (∃ d, b = [d] ∧ ¬ l.Gathers count d) ∨ l.Gathered count b) ∧
      (l.accumulated count formed).flatten = documents.filter (l.Gathers count) ∧
      (l.accumulated count formed).IsChain l.FullFor := by
  intro formed
  have hroom : empty.HasRoom l := fun hne => absurd rfl hne
  have h : Orderly l count documents (documents.foldl (add l count) empty) :=
    orderly_foldl documents (orderly_empty l count) hroom
  exact ⟨h.formed_flush, h.order_flush, h.chain_flush⟩

/-- Limits that exclude each other: a document of four bytes is gathered, but three bytes fill a
request. -/
example :
    let documents := [⟨"a", "1"⟩, ⟨"b", "23"⟩, ⟨"c", "4"⟩, ⟨"d", "5678"⟩, ⟨"e", "901234"⟩, ⟨"f", "5"⟩]
    ((documents.foldl (add ⟨2, 4, 3, 3⟩ 6) empty).flush.formed.map fun b => b.map Document.id) =
      [["a", "b"], ["c"], ["d"], ["e"], ["f"]] := by
  decide +kernel

end Gathering

/-! ### The requests of a flush -/

/-- **The requests that are formed** for some spans: each holds one document that is sent alone, or
gathered ones within the limits; these are in order; and no request of them is too early. -/
theorem orderly_batches (l : BatchLimits) (spans : List Span) :
    (∀ b ∈ batches l spans,
      (∃ d, b = [d] ∧ ¬ l.Gathers spans.length d) ∨ l.Gathered spans.length b) ∧
    (l.accumulated spans.length (batches l spans)).flatten =
      (spans.map Document.ofSpan).filter (l.Gathers spans.length) ∧
    (l.accumulated spans.length (batches l spans)).IsChain l.FullFor :=
  Gathering.orderly_end l spans.length (spans.map Document.ofSpan)

namespace Desk

variable {σ : Type} {sink : Sink σ} {d : Desk σ}

/-- **The requests of a flush** of some spans whose requests are all confirmed, whatever the limits.
The flush ends, and each document was sent once. A request with several documents is within all
limits, and there is none if the spans are too few. The gathered documents were sent in their order,
and no request of them before it was full for the next one. -/
theorem flush_requests (ha : d.Alone) (hp : d.writer.phase = .ready) (spans : List Span)
    (hc : ∀ h ∈ (d.enqueueSpans spans).heard sink none, h.answer.Confirms) :
    let flushed := (d.enqueueSpans spans).run sink none
    let requests := (d.enqueueSpans spans).requests sink none
    let l := d.writer.settings.limits
    let accumulated := requests.filter fun b => ∃ doc ∈ b, l.Gathers spans.length doc
    flushed.writer.phase = .ready ∧ flushed.writer.ahead = [] ∧
    requests.flatten.Perm (spans.map Document.ofSpan) ∧
    (∀ b ∈ requests, b ≠ [] ∧
      (1 < b.length → l.minBulkLength ≤ spans.length ∧ b.length ≤ l.maxCount ∧
        totalLength b ≤ l.maxBytes ∧ ∀ doc ∈ b, doc.length ≤ l.singleThreshold)) ∧
    (∀ b ∈ requests, (∀ doc ∈ b, l.Gathers spans.length doc) ∨
      ∃ doc, b = [doc] ∧ ¬ l.Gathers spans.length doc) ∧
    accumulated.flatten = (spans.map Document.ofSpan).filter (l.Gathers spans.length) ∧
    accumulated.IsChain fun b next => l.maxCount ≤ b.length ∨ l.maxBytes ≤ totalLength b ∨
      ∃ doc, next.head? = some doc ∧ l.maxBytes < totalLength b + doc.length := by
  intro flushed requests l accumulated
  have ha' : (d.enqueueSpans spans).Alone := ha.ahead _
  have hne : ∀ b ∈ (d.enqueueSpans spans).writer.ahead, b ≠ [] := fun b hb =>
    ne_nil_of_mem_batches hb
  obtain ⟨hready, hahead⟩ : flushed.writer.phase = .ready ∧ flushed.writer.ahead = [] :=
    ha'.ready_run hne
  have hrequests : requests = batches l spans := requests_of_confirmed ha' hp hne hc
  have haccumulated : accumulated = l.accumulated spans.length (batches l spans) := by
    rw [← hrequests]
    rfl
  obtain ⟨hforms, horder, hchain⟩ := orderly_batches l spans
  refine ⟨hready, hahead, ?_, fun b hb => ?_, fun b hb => ?_, ?_, ?_⟩
  · rw [hrequests]
    exact flatten_batches l spans
  · rw [hrequests] at hb
    refine ⟨ne_nil_of_mem_batches hb, fun hlen => ?_⟩
    rcases hforms b hb with ⟨doc, rfl, -⟩ | hgathered
    · exact absurd hlen (Nat.lt_irrefl 1)
    · obtain ⟨hcount, hbytes⟩ := hgathered.fits hlen
      obtain ⟨doc, hdoc⟩ := List.exists_mem_of_ne_nil b (ne_nil_of_mem_batches hb)
      exact ⟨(hgathered.gathers doc hdoc).1, hcount, hbytes,
        fun doc hdoc => (hgathered.gathers doc hdoc).2⟩
  · rw [hrequests] at hb
    rcases hforms b hb with halone | hgathered
    · exact Or.inr halone
    · exact Or.inl hgathered.gathers
  · rw [haccumulated]
    exact horder
  · rw [haccumulated]
    refine hchain.imp fun b next hfull => ?_
    rcases hfull with (hcount | hbytes) | hnext
    · exact Or.inl hcount
    · exact Or.inr (Or.inl hbytes)
    · exact Or.inr (Or.inr hnext)

/-- Of four spans one is large and goes alone. The first of the others is sent when the next one does not
fit to it, and the last two fill a request. -/
theorem flush_requests_of_four :
    let named (id name : String) : Span := { Span.bare id with elementName := name }
    let spans : List Span :=
      [named "a" "Split", named "b" "Aggregate", named "c" "Route", .bare "d"]
    let config : Config := { Config.default with
      batchThreshold := 2, requestMaxBytes := 613, singleThresholdBytes := 310 }
    let d : Desk ScriptedStore :=
      .of config.queue config.writer ⟨.empty, List.replicate 3 (.reply []), []⟩
    let requests := (d.enqueueSpans spans).requests ScriptedStore.sink none
    d.Alone ∧ d.writer.phase = .ready ∧
      (∀ h ∈ (d.enqueueSpans spans).heard ScriptedStore.sink none, h.answer.Confirms) ∧
      requests.map (fun b => b.map Document.id) = [["b"], ["a"], ["c", "d"]] ∧
      requests.flatten.Perm (spans.map Document.ofSpan) ∧
      (∀ b ∈ requests, 1 < b.length → b.length ≤ 2 ∧ totalLength b ≤ 613 ∧
        ∀ doc ∈ b, doc.length ≤ 310) ∧
      (requests.filter fun b => ∃ doc ∈ b, doc.length ≤ 310).IsChain fun b next =>
        2 ≤ b.length ∨ 613 ≤ totalLength b ∨
          ∃ doc, next.head? = some doc ∧ 613 < totalLength b + doc.length := by
  intro named spans config d requests
  have ha : d.Alone := ⟨⟨rfl, rfl, rfl, rfl, nofun⟩, rfl⟩
  let l : BatchLimits := ⟨2, 310, 613, 2⟩
  -- for any spans of these lengths, so that no document is written out
  have hformed : ∀ x y z t : Span,
      [x, y, z, t].map (fun span => (Document.ofSpan span).length) = [307, 311, 307, 306] →
      batches l [x, y, z, t] = [[.ofSpan y], [.ofSpan x], [.ofSpan z, .ofSpan t]] := by
    intro x y z t hlength
    simp only [List.map_cons, List.map_nil, List.cons.injEq] at hlength
    obtain ⟨hx, hy, hz, ht, -⟩ := hlength
    simp [l, batches, Gathering.add, Gathering.flush, Gathering.empty, totalLength, hx, hy, hz, ht]
  have hlength : spans.map (fun span => (Document.ofSpan span).length) = [307, 311, 307, 306] := by
    simp only [Document.length_ofSpan]
    decide +kernel
  have hahead : d.enqueueSpans spans = { d with writer := { d.writer with ahead := batches l spans } } :=
    rfl
  rw [hformed _ _ _ _ hlength] at hahead
  have hc : ∀ h ∈ (d.enqueueSpans spans).heard ScriptedStore.sink none, h.answer.Confirms := by
    rw [hahead]
    decide +kernel
  have hids : requests.map (fun b => b.map Document.id) = [["b"], ["a"], ["c", "d"]] := by
    simp only [requests, hahead]
    decide +kernel
  obtain ⟨-, -, hperm, hlimits, -, -, hchain⟩ := flush_requests ha rfl spans hc
  refine ⟨ha, rfl, hc, hids, hperm, fun b hb hlen => ((hlimits b hb).2 hlen).2, ?_⟩
  have hgathers : ∀ doc : Document, l.Gathers spans.length doc ↔ doc.length ≤ 310 :=
    fun doc => and_iff_right (by decide : 2 ≤ 4)
  have hl : d.writer.settings.limits = l := rfl
  simpa only [hl, hgathers] using hchain

end Desk

end SpanRelay

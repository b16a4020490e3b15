import Mathlib.Data.String.Basic
import SpanRelay.Proofs.Writer.Latest

/-! # The requests of a flush

Whatever the limits, the requests that `batches` forms hold together exactly the documents of the
spans (`flatten_batches`), and none of them is empty (`ne_nil_of_mem_batches`). So the documents of
one flush have distinct ids, in all requests together and in each (`nodup_ids_batches`). Documents that
are small enough for one request make one (`batches_of_room`). -/

namespace SpanRelay

theorem Document.length_ofSpan (x : Span) :
    (ofSpan x).length = String.utf8Len x.toJson.print := String.utf8ByteSize_ofList _

theorem totalLength_append : ∀ b c : List Document,
    totalLength (b ++ c) = totalLength b + totalLength c
  | [], c => (Nat.zero_add _).symm
  | d :: b, c => by
    simp only [List.cons_append, totalLength, totalLength_append b c]
    omega

namespace Gathering

/-- All documents, formed into requests or not. -/
def documents (g : Gathering) : List Document := g.formed.flatten ++ g.pending

@[simp] theorem documents_flush (g : Gathering) : g.flush.documents = g.documents := by
  unfold flush
  split
  · rfl
  · simp [documents]

@[simp] theorem pending_flush (g : Gathering) : g.flush.pending = [] := by
  unfold flush
  split
  · rename_i h; exact List.isEmpty_iff.1 h
  · rfl

theorem ne_nil_flush {g : Gathering} (h : ∀ b ∈ g.formed, b ≠ []) : ∀ b ∈ g.flush.formed, b ≠ [] := by
  unfold flush
  split
  · exact h
  · rename_i hp
    intro b hb
    rcases List.mem_append.1 hb with hb | hb
    · exact h b hb
    · rw [List.mem_singleton.1 hb]
      exact fun he => hp (by simp [he])

/-- The gathering with a document that fits to the pending ones. -/
def push (g : Gathering) (d : Document) : Gathering := { g with pending := g.pending ++ [d] }

theorem add_cases (l : BatchLimits) (count : Nat) (g : Gathering) (d : Document) :
    g.add l count d = { g with formed := g.formed ++ [[d]] } ∨
    ∃ g', (g' = g ∨ g' = g.flush) ∧
      (g.add l count d = g'.push d ∨ g.add l count d = (g'.push d).flush) := by
  unfold add
  split
  · exact Or.inl rfl
  right
  dsimp only
  by_cases hb : l.maxBytes < totalLength g.pending + d.length
  · refine ⟨g.flush, Or.inr rfl, ?_⟩
    rw [if_pos hb]
    split
    · exact Or.inr rfl
    · exact Or.inl rfl
  · refine ⟨g, Or.inl rfl, ?_⟩
    rw [if_neg hb]
    split
    · exact Or.inr rfl
    · exact Or.inl rfl

theorem documents_add (l : BatchLimits) (count : Nat) (g : Gathering) (d : Document) :
    (g.add l count d).documents.Perm (g.documents ++ [d]) := by
  have push_documents : ∀ g : Gathering, (g.push d).documents = g.documents ++ [d] := by
    intro g; simp [push, documents]
  rcases add_cases l count g d with h | ⟨g', hg, h | h⟩
  · rw [h]
    simp only [documents, List.flatten_append, List.append_assoc, List.flatten_cons,
      List.flatten_nil, List.append_nil]
    exact List.Perm.append_left _ List.perm_append_comm
  · rw [h, push_documents]
    rcases hg with rfl | rfl <;> simp
  · rw [h, documents_flush, push_documents]
    rcases hg with rfl | rfl <;> simp

theorem ne_nil_add (l : BatchLimits) (count : Nat) {g : Gathering} (d : Document)
    (h : ∀ b ∈ g.formed, b ≠ []) : ∀ b ∈ (g.add l count d).formed, b ≠ [] := by
  rcases add_cases l count g d with h' | ⟨g', hg, h' | h'⟩
  · rw [h']
    intro b hb
    rcases List.mem_append.1 hb with hb | hb
    · exact h b hb
    · rw [List.mem_singleton.1 hb]; simp
  · rw [h']
    rcases hg with rfl | rfl
    · exact h
    · exact ne_nil_flush h
  · rw [h']
    refine ne_nil_flush ?_
    rcases hg with rfl | rfl
    · exact h
    · exact ne_nil_flush h

theorem documents_foldl (l : BatchLimits) (count : Nat) : ∀ (ds : List Document) (g : Gathering),
    (ds.foldl (add l count) g).documents.Perm (g.documents ++ ds)
  | [], g => by simp
  | d :: ds, g => by
    have ih := documents_foldl l count ds (g.add l count d)
    have hd := (documents_add l count g d).append_right ds
    rw [List.append_assoc] at hd
    exact ih.trans hd

theorem ne_nil_foldl (l : BatchLimits) (count : Nat) : ∀ (ds : List Document) {g : Gathering},
    (∀ b ∈ g.formed, b ≠ []) → ∀ b ∈ (ds.foldl (add l count) g).formed, b ≠ []
  | [], _, h => h
  | d :: ds, _, h => ne_nil_foldl l count ds (ne_nil_add l count d h)

theorem foldl_add_of_room {l : BatchLimits} {count : Nat} (hcount : l.minBulkLength ≤ count) :
    ∀ {ds : List Document} {g : Gathering}, (∀ d ∈ ds, d.length ≤ l.singleThreshold) →
      g.pending.length + ds.length < l.maxCount →
      totalLength g.pending + totalLength ds < l.maxBytes →
      ds.foldl (add l count) g = { g with pending := g.pending ++ ds }
  | [], g, _, _, _ => by simp
  | d :: ds, g, hsmall, hlength, hbytes => by
    have hd : d.length ≤ l.singleThreshold := hsmall d List.mem_cons_self
    simp only [List.length_cons, totalLength] at hlength hbytes
    have hpending : (g.push d).pending.length = g.pending.length + 1 := by simp [push]
    have htotal : totalLength (g.push d).pending = totalLength g.pending + d.length := by
      simp [push, totalLength_append, totalLength]
    have hroom : ¬ l.maxBytes < totalLength g.pending + d.length := by omega
    have hfull : ¬ (l.maxCount ≤ (g.push d).pending.length ∨
        l.maxBytes ≤ totalLength (g.push d).pending) := by omega
    have hadd : g.add l count d = g.push d := by
      rw [add, if_neg (by omega), if_neg hroom]
      exact if_neg hfull
    have ih := foldl_add_of_room (g := g.push d) hcount
      (fun e he => hsmall e (List.mem_cons_of_mem _ he)) (by omega) (by omega)
    rw [List.foldl_cons, hadd, ih]
    simp [push]

end Gathering

/-- **Every document once.** -/
theorem flatten_batches (l : BatchLimits) (spans : List Span) :
    (batches l spans).flatten.Perm (spans.map Document.ofSpan) := by
  have h := Gathering.documents_foldl l spans.length (spans.map Document.ofSpan) .empty
  rw [← Gathering.documents_flush] at h
  simpa [Gathering.documents, Gathering.empty, batches] using h

theorem ne_nil_of_mem_batches {l : BatchLimits} {spans : List Span} {b : List Document}
    (h : b ∈ batches l spans) : b ≠ [] :=
  Gathering.ne_nil_flush (Gathering.ne_nil_foldl l spans.length _ (by simp [Gathering.empty])) b h

/-- **What fits together** makes one request. -/
theorem batches_of_room {l : BatchLimits} {spans : List Span} (hne : spans ≠ [])
    (hcount : l.minBulkLength ≤ spans.length)
    (hsmall : ∀ span ∈ spans, (Document.ofSpan span).length ≤ l.singleThreshold)
    (hlength : spans.length < l.maxCount)
    (hbytes : totalLength (spans.map Document.ofSpan) < l.maxBytes) :
    batches l spans = [spans.map Document.ofSpan] := by
  rw [batches, Gathering.foldl_add_of_room hcount (by simpa using hsmall)
    (by simpa [Gathering.empty] using hlength) (by simpa [Gathering.empty, totalLength] using hbytes)]
  simp [Gathering.flush, Gathering.empty, hne]

theorem length_flatten_batches (l : BatchLimits) (spans : List Span) :
    (batches l spans).flatten.length = spans.length := by
  simpa using (flatten_batches l spans).length_eq

theorem nodup_ids_batches (l : BatchLimits) {spans : List Span} (h : (spans.map Span.id).Nodup) :
    ((batches l spans).flatten.map Document.id).Nodup := by
  have hp := (flatten_batches l spans).map Document.id
  rw [List.map_map] at hp
  exact (hp.nodup_iff).2 h

end SpanRelay

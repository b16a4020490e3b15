import Mathlib.Data.List.Basic
import Mathlib.Data.List.Nodup
import SpanRelay.Writer.Delivery

/-! # What an answer settles

An answer is `Itemwise` if it fails as a whole or has one item for each document, under its id.
Each document of a delivery with distinct ids is then acknowledged, given up or left to be sent
again, and one that is given up is reported as lost: `settle_dealt` says so in terms of
`Account.Dealt`, which compares the accounts before and after. -/

namespace SpanRelay

/-- The spans that the events report as lost with the severity of an error. -/
def reportedLost : List Event → Nat
  | [] => 0
  | e :: es => reportedLost es + if e.severity = .error then e.lost else 0

theorem reportedLost_append (es fs : List Event) :
    reportedLost (es ++ fs) = reportedLost es + reportedLost fs := by
  induction es with
  | nil => simp [reportedLost]
  | cons e es ih =>
    rw [List.cons_append, reportedLost, reportedLost, ih]
    omega

/-- The field that tells how many spans are lost is what an error counts. -/
theorem lost_mem_fields {e : Event} (h : e.severity = .error) :
    ("lost", Json.int e.lost) ∈ e.fields := by
  cases e with
  | rejected | failed | exhausted => simp [Event.fields, Event.lost]
  | dropped | retrying | shortResponse => cases h

/-- Of the spans in the account `a`, `n` more are flushed or lost in `b`, and the loss of those that
are is reported. -/
structure Account.Dealt (a b : Account) (n : Nat) : Prop where
  scheduled : b.tally.scheduled = a.tally.scheduled
  dropped : b.tally.dropped = a.tally.dropped
  skipped : b.tally.skipped = a.tally.skipped
  settled : b.tally.flushed + b.tally.lost = a.tally.flushed + a.tally.lost + n
  reported : reportedLost b.events + a.tally.lost = reportedLost a.events + b.tally.lost

namespace Account.Dealt

variable {a b c : Account} {m n : Nat}

theorem refl (a : Account) : a.Dealt a 0 := ⟨rfl, rfl, rfl, rfl, rfl⟩

theorem trans (h : a.Dealt b m) (h' : b.Dealt c n) : a.Dealt c (m + n) where
  scheduled := h'.scheduled.trans h.scheduled
  dropped := h'.dropped.trans h.dropped
  skipped := h'.skipped.trans h.skipped
  settled := by have := h.settled; have := h'.settled; omega
  reported := by have := h.reported; have := h'.reported; omega

theorem flushed (a : Account) (n : Nat) : a.Dealt (a.addFlushed n) n where
  scheduled := rfl
  dropped := rfl
  skipped := rfl
  settled := by simp only [addFlushed]; omega
  reported := rfl

theorem lost (a : Account) {e : Event} (he : e.severity = .error) :
    a.Dealt ((a.addLost e.lost).note e) e.lost where
  scheduled := rfl
  dropped := rfl
  skipped := rfl
  settled := by simp only [addLost, note]; omega
  reported := by
    simp only [addLost, note, reportedLost_append, reportedLost, he, if_true]
    omega

theorem warned (a : Account) {e : Event} (he : e.severity = .warning) : a.Dealt (a.note e) 0 where
  scheduled := rfl
  dropped := rfl
  skipped := rfl
  settled := rfl
  reported := by simp [note, reportedLost_append, reportedLost, he]

theorem warnings : ∀ (es : List Event) (a : Account), (∀ e ∈ es, e.severity = .warning) →
    a.Dealt (es.foldl note a) 0
  | [], a, _ => refl a
  | e :: es, a, h =>
    (warned a (h e (by simp))).trans (warnings es (a.note e) fun d hd => h d (by simp [hd]))

end Account.Dealt

/-- The answer fails as a whole or has one item for each document, under its id. -/
def Answer.Itemwise (documents : List Document) (answer : Answer) : Prop :=
  ∀ response, answer = .ok response →
    (response.items.map BulkItem.id).Perm (documents.map Document.id)

instance (documents : List Document) : DecidablePred (Answer.Itemwise documents)
  | .ok response => decidable_of_iff ((response.items.map BulkItem.id).Perm (documents.map Document.id))
      ⟨fun h => by rintro _ ⟨⟩; exact h, fun h => h response rfl⟩
  | .error _ => .isTrue (by rintro _ ⟨⟩)

/-- The documents that are left to be sent. -/
def Settlement.left (s : Settlement) : List Document := s.next.elim [] Delivery.documents

namespace Delivery

/-! ### The documents left over by failed items -/

theorem retained_sublist (documents : List Document) (failures : List BulkItem) :
    (retained documents failures).Sublist documents := List.filter_sublist

theorem retained_of_not_hasFailures (documents : List Document) {response : BulkResponse}
    (h : ¬response.hasFailures = true) :
    response.failures = [] ∧ retained documents response.failures = [] := by
  have hnone : response.failures = [] := by simpa [BulkResponse.hasFailures] using h
  refine ⟨hnone, ?_⟩
  rw [hnone]
  exact List.filter_eq_nil_iff.2 fun _ _ => Bool.false_ne_true

theorem ids_retained {documents : List Document} {items : List BulkItem}
    (hd : (documents.map Document.id).Nodup)
    (hi : (items.map BulkItem.id).Perm (documents.map Document.id)) :
    ((retained documents items).map Document.id).Perm
      ((items.filter BulkItem.isRetryable).map BulkItem.id) := by
  have hsub : ((items.filter BulkItem.isRetryable).map BulkItem.id).Sublist
      (items.map BulkItem.id) := List.filter_sublist.map _
  refine (List.perm_ext_iff_of_nodup (hd.sublist ((retained_sublist _ _).map _))
    ((hi.nodup_iff.2 hd).sublist hsub)).2 fun id => ?_
  constructor
  · intro h
    obtain ⟨doc, hdoc, rfl⟩ := List.mem_map.1 h
    exact List.contains_iff_mem.1 (List.mem_filter.1 hdoc).2
  · intro h
    obtain ⟨doc, hdoc, rfl⟩ := List.mem_map.1 (hi.subset (hsub.subset h))
    exact List.mem_map_of_mem (List.mem_filter.2 ⟨hdoc, List.contains_iff_mem.2 h⟩)

theorem filter_isRetryable_failures (items : List BulkItem) :
    (items.filter fun i => !i.isSuccess).filter BulkItem.isRetryable =
      items.filter BulkItem.isRetryable := by
  rw [List.filter_filter]
  refine List.filter_congr fun i _ => ?_
  cases h : i.isSuccess <;> simp [BulkItem.isRetryable, h]

theorem length_retained_failures {documents : List Document} {response : BulkResponse}
    (hd : (documents.map Document.id).Nodup)
    (hi : (response.items.map BulkItem.id).Perm (documents.map Document.id)) :
    (retained documents response.failures).length +
        (response.failures.filter fun i => !i.isRetryable).length = response.failures.length ∧
      response.failures.length ≤ documents.length := by
  have hr : retained documents response.failures = retained documents response.items := by
    unfold retained BulkResponse.failures
    rw [filter_isRetryable_failures]
  have hl := (ids_retained hd hi).length_eq
  rw [List.length_map, List.length_map, ← hr, ← filter_isRetryable_failures] at hl
  refine ⟨?_, ?_⟩
  · rw [hl, List.length_eq_length_filter_add (l := response.failures) BulkItem.isRetryable]
    rfl
  · have hle := List.length_filter_le (fun i => !BulkItem.isSuccess i) response.items
    have hlen := hi.length_eq
    rw [List.length_map, List.length_map] at hlen
    unfold BulkResponse.failures
    omega

/-! ### What becomes of the documents -/

@[simp] theorem documents_foldl_addReason (reason : BulkItem → String) :
    ∀ (items : List BulkItem) (d : Delivery),
      (items.foldl (fun d i => d.addReason (reason i)) d).documents = d.documents
  | [], _ => rfl
  | i :: items, d => documents_foldl_addReason reason items (d.addReason (reason i))

variable (maxRetries : Nat) (backoff : Backoff) (a : Account)

theorem retry_dealt (d : Delivery) :
    ∃ n, a.Dealt (d.retry maxRetries backoff a).account n ∧
      n + (d.retry maxRetries backoff a).left.length = d.documents.length := by
  unfold retry
  dsimp only
  split
  · exact ⟨_, .lost a (e := .exhausted d.documents.length _ _ _) rfl, Nat.add_zero _⟩
  · exact ⟨0, .warned a rfl, Nat.zero_add _⟩

theorem retry_left_sublist (d : Delivery) :
    (d.retry maxRetries backoff a).left.Sublist d.documents := by
  unfold retry
  dsimp only
  split
  · exact List.nil_sublist _
  · exact List.Sublist.refl _

theorem settleFailures_dealt {d : Delivery} {response : BulkResponse}
    (hd : (d.documents.map Document.id).Nodup)
    (hi : (response.items.map BulkItem.id).Perm (d.documents.map Document.id)) :
    ∃ n, a.Dealt (d.settleFailures maxRetries backoff a response.failures).account n ∧
      n + (d.settleFailures maxRetries backoff a response.failures).left.length =
        d.documents.length := by
  obtain ⟨hlen, hle⟩ := length_retained_failures hd hi
  unfold settleFailures
  dsimp only
  generalize hl : (response.failures.filter fun i => !i.isRetryable).length = lost at hlen ⊢
  rw [documents_foldl_addReason]
  generalize response.failures.foldl (fun d i => d.addReason (itemReason i)) d = d'
  -- the items that are rejected for good
  have hlost : ∃ a', a' = (if 0 < lost then
        ((a.addFlushed (d.documents.length - response.failures.length)).addLost lost).note
          (.rejected lost d'.reasons)
      else a.addFlushed (d.documents.length - response.failures.length)) ∧
      a.Dealt a' (d.documents.length - response.failures.length + lost) := by
    refine ⟨_, rfl, (Account.Dealt.flushed a _).trans ?_⟩
    split
    · exact .lost _ (e := .rejected lost d'.reasons) rfl
    · rename_i h0
      obtain rfl : lost = 0 := by omega
      exact .refl _
  obtain ⟨a', ha', hdealt⟩ := hlost
  rw [← ha']
  split
  · rename_i hempty
    rw [List.isEmpty_iff.1 hempty] at hlen
    refine ⟨_, hdealt, ?_⟩
    simp only [List.length_nil, Settlement.left, Option.elim] at hlen ⊢
    omega
  · obtain ⟨n, hn, hsum⟩ := retry_dealt maxRetries backoff.increase a'
      { d' with documents := retained d.documents response.failures }
    exact ⟨_, hdealt.trans hn, by dsimp only at hsum; omega⟩

theorem settleFailures_left_sublist (d : Delivery) (failures : List BulkItem) :
    (d.settleFailures maxRetries backoff a failures).left.Sublist d.documents := by
  unfold settleFailures
  dsimp only
  rw [documents_foldl_addReason]
  split
  · exact List.nil_sublist _
  · exact (retry_left_sublist _ _ _ _).trans (retained_sublist _ _)

/-- **Every document is dealt with or left to be sent.** -/
theorem settle_dealt {d : Delivery} {answer : Answer}
    (hd : (d.documents.map Document.id).Nodup) (ha : answer.Itemwise d.documents) :
    ∃ n, a.Dealt (d.settle maxRetries backoff a answer).account n ∧
      n + (d.settle maxRetries backoff a answer).left.length = d.documents.length := by
  unfold settle
  split
  · rename_i response
    split
    · exact settleFailures_dealt maxRetries backoff a hd (ha response rfl)
    · exact ⟨_, .flushed a _, Nat.add_zero _⟩
  · rename_i e
    dsimp only
    split
    · exact retry_dealt maxRetries backoff.increase a (d.addReason e.message)
    · exact ⟨_, .lost a (e := .failed d.documents.length e) rfl, Nat.add_zero _⟩

theorem settle_left_sublist (d : Delivery) (answer : Answer) :
    (d.settle maxRetries backoff a answer).left.Sublist d.documents := by
  unfold settle
  split
  · split
    · exact settleFailures_left_sublist _ _ _ _ _
    · exact List.nil_sublist _
  · rename_i e
    dsimp only
    split
    · exact retry_left_sublist maxRetries backoff.increase a (d.addReason e.message)
    · exact List.nil_sublist _

end Delivery

end SpanRelay

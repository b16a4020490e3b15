import Mathlib.Data.List.Chain
import SpanRelay.Proofs.Writer.Sending
import SpanRelay.Store.Scripted

/-! # Repeated requests

An itemwise answer acknowledges, rejects or reopens each document of its request, and a reopened one
may be sent again. `Dialogue` is all that is heard of one delivery until it is done.

* `settle_verdicts`: what an answer counts, and when a delivery goes on.
* `Dialogue.follows`: each request has just the reopened documents of the one before it.
* `Dialogue.verdicts`: each document is indexed once, or it is lost once: rejected, or reopened by the
  answers to all requests that are allowed.

`batch_delivered` says this of the requests that a writer sends for a batch of documents. -/

namespace SpanRelay

/-! ### What an answer says of a document -/

namespace Answer

/-- The document was indexed. -/
def acknowledges (answer : Answer) (doc : Document) : Bool :=
  match answer with
  | .ok response => response.items.any fun i => i.id = doc.id && i.isSuccess
  | .error _ => false

/-- The document failed for good: its item tells so, or the request failed as a whole and would fail
again. -/
def rejects (answer : Answer) (doc : Document) : Bool :=
  match answer with
  | .ok response => response.items.any fun i =>
      i.id = doc.id && (!i.isSuccess && !(i.status = 429 || 500 ≤ i.status))
  | .error e => !e.isRetryable

/-- The document failed, but it may be sent again: the store was busy or in trouble. -/
def reopens (answer : Answer) (doc : Document) : Bool :=
  match answer with
  | .ok response => response.items.any fun i =>
      i.id = doc.id && (!i.isSuccess && (i.status = 429 || 500 ≤ i.status))
  | .error e => e.isRetryable

variable {answer : Answer} {documents : List Document} {items : List BulkItem} {doc : Document}

theorem Itemwise.aligned (h : answer.Itemwise documents) : answer.Aligned documents := by
  intro response hok
  simpa using (h response hok).length_eq

theorem any_item (hnodup : (items.map BulkItem.id).Nodup) {i : BulkItem} (hi : i ∈ items)
    (hid : i.id = doc.id) (P : BulkItem → Bool) :
    (items.any fun j => j.id = doc.id && P j) = P i := by
  rw [Bool.eq_iff_iff, List.any_eq_true]
  simp only [Bool.and_eq_true, decide_eq_true_eq]
  constructor
  · rintro ⟨j, hj, hjd, hP⟩
    rwa [List.inj_on_of_nodup_map hnodup hi hj (hid.trans hjd.symm)]
  · intro hP
    exact ⟨i, hi, hid, hP⟩

/-- **One of three**: a document is acknowledged, rejected or reopened. -/
theorem verdict_cases (ha : answer.Itemwise documents) (hd : (documents.map Document.id).Nodup)
    (hdoc : doc ∈ documents) :
    (answer.acknowledges doc = true ∧ answer.rejects doc = false ∧ answer.reopens doc = false) ∨
    (answer.acknowledges doc = false ∧ answer.rejects doc = true ∧ answer.reopens doc = false) ∨
    (answer.acknowledges doc = false ∧ answer.rejects doc = false ∧ answer.reopens doc = true) := by
  cases answer with
  | error e => cases h : e.isRetryable <;> simp [acknowledges, rejects, reopens, h]
  | ok response =>
    have hperm := ha response rfl
    obtain ⟨i, hi, hid⟩ := List.mem_map.1 (hperm.symm.subset (List.mem_map_of_mem hdoc))
    have hone := any_item (hperm.nodup_iff.2 hd) hi hid
    simp only [acknowledges, rejects, reopens, hone]
    cases i.isSuccess <;> cases h : (decide (i.status = 429) || decide (500 ≤ i.status)) <;> simp

theorem length_filter_any (hd : (documents.map Document.id).Nodup)
    (hi : (items.map BulkItem.id).Perm (documents.map Document.id)) (P : BulkItem → Bool) :
    (documents.filter fun doc => items.any fun i => i.id = doc.id && P i).length =
      (items.filter P).length := by
  have hnodup := hi.nodup_iff.2 hd
  have hsub : ((items.filter P).map BulkItem.id).Sublist (items.map BulkItem.id) :=
    List.filter_sublist.map _
  have hperm : ((documents.filter fun doc => items.any fun i => i.id = doc.id && P i).map
      Document.id).Perm ((items.filter P).map BulkItem.id) := by
    refine (List.perm_ext_iff_of_nodup (hd.sublist (List.filter_sublist.map _))
      (hnodup.sublist hsub)).2 fun id => ?_
    simp only [List.mem_map, List.mem_filter, List.any_eq_true, Bool.and_eq_true, decide_eq_true_eq]
    constructor
    · rintro ⟨doc, ⟨-, i, hmem, hid, hP⟩, rfl⟩
      exact ⟨i, ⟨hmem, hP⟩, hid⟩
    · rintro ⟨i, ⟨hmem, hP⟩, rfl⟩
      obtain ⟨doc, hdoc, hid⟩ := List.mem_map.1 (hi.subset (List.mem_map_of_mem hmem))
      exact ⟨doc, ⟨hdoc, i, hmem, hid.symm, hP⟩, hid⟩
  simpa using hperm.length_eq

end Answer

theorem perm_filter_three {α : Type} {p q r : α → Bool} : ∀ {l : List α},
    (∀ x ∈ l, (p x = true ∧ q x = false ∧ r x = false) ∨ (p x = false ∧ q x = true ∧ r x = false) ∨
      (p x = false ∧ q x = false ∧ r x = true)) →
    (l.filter p ++ l.filter q ++ l.filter r).Perm l
  | [], _ => List.Perm.refl _
  | x :: l, h => by
    have ih := perm_filter_three fun y hy => h y (List.mem_cons_of_mem x hy)
    rcases h x List.mem_cons_self with ⟨hp, hq, hr⟩ | ⟨hp, hq, hr⟩ | ⟨hp, hq, hr⟩
    · simpa [hp, hq, hr] using ih
    · simp only [List.filter_cons, hp, hq, hr, Bool.false_eq_true, if_true, if_false]
      rw [List.append_assoc, List.cons_append]
      rw [List.append_assoc] at ih
      exact List.perm_middle.trans (ih.cons x)
    · simp only [List.filter_cons, hp, hq, hr, Bool.false_eq_true, if_true, if_false]
      exact List.perm_middle.trans (ih.cons x)

namespace Delivery

variable {maxRetries : Nat} {backoff : Backoff} {a : Account} {d d' : Delivery} {answer : Answer}

theorem retained_eq (documents : List Document) (response : BulkResponse) :
    retained documents response.failures =
      documents.filter (Answer.reopens (.ok response)) := by
  unfold retained
  refine List.filter_congr fun doc _ => ?_
  rw [Bool.eq_iff_iff, List.contains_iff_mem]
  simp only [BulkResponse.failures, filter_isRetryable_failures, Answer.reopens, List.mem_map,
    List.mem_filter, List.any_eq_true, Bool.and_eq_true, decide_eq_true_eq]
  constructor
  · rintro ⟨i, ⟨hi, hr⟩, hid⟩
    exact ⟨i, hi, hid, by simpa [BulkItem.isRetryable] using hr⟩
  · rintro ⟨i, hi, hid, hr⟩
    exact ⟨i, ⟨hi, by simpa [BulkItem.isRetryable] using hr⟩, hid⟩

theorem count_settledBy_eq {documents : List Document} {response : BulkResponse}
    (hd : (documents.map Document.id).Nodup)
    (hi : (response.items.map BulkItem.id).Perm (documents.map Document.id)) :
    ((settledBy documents response.items).map Prod.snd).count .flushed =
        (documents.filter (Answer.acknowledges (.ok response))).length ∧
      ((settledBy documents response.items).map Prod.snd).count .lost =
        (documents.filter (Answer.rejects (.ok response))).length := by
  have hlength : response.items.length = documents.length := by simpa using hi.length_eq
  obtain ⟨hflushed, hlost⟩ := count_settledBy hlength
  have hack := Answer.length_filter_any hd hi BulkItem.isSuccess
  have hrej := Answer.length_filter_any hd hi fun i =>
    !i.isSuccess && !(i.status = 429 || 500 ≤ i.status)
  have hsplit := List.length_eq_length_filter_add (l := response.items) BulkItem.isSuccess
  refine ⟨?_, ?_⟩
  · rw [hflushed]
    unfold Answer.acknowledges BulkResponse.failures
    dsimp only
    omega
  · rw [hlost]
    unfold Answer.rejects BulkResponse.failures
    dsimp only
    rw [hrej, List.filter_filter]
    refine congrArg List.length (List.filter_congr fun i _ => ?_)
    cases h : i.isSuccess <;> simp [BulkItem.isRetryable, h]

/-- What a hearing counts and what remains, by what the answer says of the documents. Only where the
request failed for good, the documents that remain are rejected ones. -/
theorem hearing_verdicts (maxRetries : Nat) (backoff : Backoff) (a : Account)
    (hd : (d.documents.map Document.id).Nodup)
    (ha : answer.Itemwise d.documents) :
    let h := d.hearing maxRetries backoff a answer
    let rejected := d.documents.filter answer.rejects
    let reopened := d.documents.filter answer.reopens
    (h.settled.map Prod.snd).count .flushed = (d.documents.filter answer.acknowledges).length ∧
    ((h.remaining = reopened ∧ (h.settled.map Prod.snd).count .lost = rejected.length) ∨
      (h.settlement.next = none ∧ h.remaining = rejected ∧ reopened = [] ∧
        (h.settled.map Prod.snd).count .lost = 0)) := by
  intro h rejected reopened
  cases answer with
  | ok response =>
    obtain ⟨hflushed, hlost⟩ := count_settledBy_eq hd (ha response rfl)
    exact ⟨hflushed, Or.inl ⟨retained_eq d.documents response, hlost⟩⟩
  | error e =>
    have hack : d.documents.filter (Answer.acknowledges (.error e)) = [] :=
      List.filter_eq_nil_iff.2 fun _ _ => Bool.false_ne_true
    refine ⟨by rw [hack]; rfl, ?_⟩
    cases he : e.isRetryable with
    | true =>
      have hreopened : reopened = d.documents := List.filter_eq_self.2 fun _ _ => he
      have hrejected : rejected = [] :=
        List.filter_eq_nil_iff.2 fun _ _ => by simp [Answer.rejects, he]
      rw [hreopened, hrejected]
      exact Or.inl ⟨rfl, rfl⟩
    | false =>
      have hrejected : rejected = d.documents :=
        List.filter_eq_self.2 fun _ _ => by simp [Answer.rejects, he]
      have hreopened : reopened = [] :=
        List.filter_eq_nil_iff.2 fun _ _ => by simp [Answer.reopens, he]
      have hnext : h.settlement.next = none := by simp [h, hearing, settle, he]
      rw [hrejected]
      exact Or.inr ⟨hnext, rfl, hreopened, rfl⟩

/-- A request that failed for good is not repeated. -/
theorem repeatable_of_settle {e : RelayError}
    (h : (d.settle maxRetries backoff a (.error e)).next = some d') : e.isRetryable = true := by
  by_contra hfinal
  simp [settle, hfinal] at h

theorem exhausted_of_retry (h : (d.retry maxRetries backoff a).next = none) :
    maxRetries < d.attempts + 1 := by
  unfold retry at h
  dsimp only at h
  split at h
  · assumption
  · cases h

theorem exhausted_of_settle (h : (d.settle maxRetries backoff a answer).next = none) :
    d.documents.filter answer.reopens = [] ∨ maxRetries < d.attempts + 1 := by
  unfold settle at h
  split at h
  · rename_i response
    rw [← retained_eq]
    split at h
    · unfold settleFailures at h
      dsimp only at h
      split at h
      · rename_i hempty
        left
        simpa using hempty
      · right
        simpa using exhausted_of_retry h
    · rename_i hfine
      left
      exact (Delivery.retained_of_not_hasFailures _ hfine).2
  · rename_i e
    dsimp only at h
    split at h
    · right
      exact exhausted_of_retry (d := d.addReason _) h
    · rename_i hfinal
      left
      exact List.filter_eq_nil_iff.2 fun _ _ => hfinal

/-- **What an answer does to a delivery.** The documents acknowledged are flushed, and the rejected
ones are lost. The others are sent again if repetitions remain, and else they are lost. -/
theorem settle_verdicts (hd : (d.documents.map Document.id).Nodup)
    (ha : answer.Itemwise d.documents) :
    let s := d.settle maxRetries backoff a answer
    let flushed := (d.documents.filter answer.acknowledges).length
    let lost := (d.documents.filter answer.rejects).length
    let reopened := d.documents.filter answer.reopens
    (s.next = none ∧ (reopened = [] ∨ maxRetries < d.attempts + 1) ∧
      s.account.tally = { a.tally with
        flushed := a.tally.flushed + flushed
        lost := a.tally.lost + (lost + reopened.length) }) ∨
    ∃ d', s.next = some d' ∧ d'.documents = reopened ∧ d'.attempts = d.attempts + 1 ∧
      d.attempts + 1 ≤ maxRetries ∧
      s.account.tally = { a.tally with
        flushed := a.tally.flushed + flushed, lost := a.tally.lost + lost } := by
  intro s flushed lost reopened
  obtain ⟨hflushed, hlost⟩ := hearing_verdicts maxRetries backoff a hd ha
  rcases leaves_settle maxRetries backoff a ha.aligned with
    ⟨hnone, htally⟩ | ⟨d', hnext, hdocs, htally⟩
  · refine Or.inl ⟨hnone, exhausted_of_settle hnone, ?_⟩
    rw [htally, Tally.count_replicate_lost, Tally.count, hflushed]
    rcases hlost with ⟨hremaining, hcount⟩ | ⟨-, hremaining, hreopened, hcount⟩
    · rw [hremaining, hcount]
      simp only [Nat.add_assoc, flushed, lost, reopened]
    · rw [hremaining, hcount]
      simp only [Nat.add_zero, flushed, lost, reopened, hreopened, List.length_nil]
  · have hgoes : d'.documents = reopened ∧
        (((d.hearing maxRetries backoff a answer).settled.map Prod.snd).count .lost) = lost := by
      rcases hlost with ⟨hremaining, hcount⟩ | ⟨hnone, -⟩
      · exact ⟨hdocs.trans hremaining, hcount⟩
      · exact absurd (hnext.symm.trans hnone) (Option.some_ne_none d')
    obtain ⟨hattempts, hle⟩ := attempts_of_settle hnext
    refine Or.inr ⟨d', hnext, hgoes.1, hattempts, hle, ?_⟩
    rw [htally, Tally.count, hflushed, hgoes.2]

end Delivery

/-! ### All that is heard of a delivery -/

/-- What is heard of a delivery from one tally to another, until it is done. -/
inductive Dialogue (maxRetries : Nat) : Delivery → Tally → List Hearing → Tally → Prop
  /-- The answer leaves nothing to be sent. -/
  | last {d : Delivery} {backoff : Backoff} {a : Account} {answer : Answer}
      (h : (d.settle maxRetries backoff a answer).next = none) :
      Dialogue maxRetries d a.tally [d.hearing maxRetries backoff a answer]
        (d.settle maxRetries backoff a answer).account.tally
  /-- The delivery goes on. -/
  | again {d d' : Delivery} {backoff : Backoff} {a : Account} {answer : Answer}
      {hs : List Hearing} {t : Tally} (h : (d.settle maxRetries backoff a answer).next = some d')
      (hrest : Dialogue maxRetries d' (d.settle maxRetries backoff a answer).account.tally hs t) :
      Dialogue maxRetries d a.tally (d.hearing maxRetries backoff a answer :: hs) t

/-- The documents of a batch, dealt with in a dialogue. -/
structure Verdicts (maxRetries : Nat) (d : Delivery) (hs : List Hearing)
    (indexed rejected exhausted : List Document) : Prop where
  once : (indexed ++ rejected ++ exhausted).Perm d.documents
  indexed : ∀ doc ∈ indexed, ∃ h ∈ hs,
    doc ∈ h.delivery.documents ∧ h.answer.acknowledges doc = true
  rejected : ∀ doc ∈ rejected, ∃ h ∈ hs,
    doc ∈ h.delivery.documents ∧ h.answer.rejects doc = true
  exhausted : ∀ doc ∈ exhausted, hs.length + d.attempts = maxRetries + 1 ∧
    ∀ h ∈ hs, doc ∈ h.delivery.documents ∧ h.answer.reopens doc = true

namespace Verdicts

variable {maxRetries : Nat} {backoff : Backoff} {a : Account} {d d' : Delivery} {answer : Answer}
  {hs : List Hearing} {indexed rejected exhausted : List Document}

theorem last (hd : (d.documents.map Document.id).Nodup) (hle : d.attempts ≤ maxRetries)
    (ha : answer.Itemwise d.documents)
    (hdone : d.documents.filter answer.reopens = [] ∨ maxRetries < d.attempts + 1) :
    Verdicts maxRetries d [d.hearing maxRetries backoff a answer]
      (d.documents.filter answer.acknowledges) (d.documents.filter answer.rejects)
      (d.documents.filter answer.reopens) where
  once := perm_filter_three fun _ hdoc => Answer.verdict_cases ha hd hdoc
  indexed _ hdoc := ⟨_, List.mem_cons_self, List.mem_filter.1 hdoc⟩
  rejected _ hdoc := ⟨_, List.mem_cons_self, List.mem_filter.1 hdoc⟩
  exhausted doc hdoc := by
    rcases hdone with hnil | hlast
    · rw [hnil] at hdoc
      cases hdoc
    · refine ⟨by rw [List.length_singleton]; omega, fun h hh => ?_⟩
      rw [List.mem_singleton.1 hh]
      exact List.mem_filter.1 hdoc

/-- The verdicts of an answer, and those on the documents that are sent again. -/
theorem again (h : Verdicts maxRetries d' hs indexed rejected exhausted)
    (hd : (d.documents.map Document.id).Nodup) (ha : answer.Itemwise d.documents)
    (hdocs : d'.documents = d.documents.filter answer.reopens)
    (hattempts : d'.attempts = d.attempts + 1) :
    Verdicts maxRetries d (d.hearing maxRetries backoff a answer :: hs)
      (d.documents.filter answer.acknowledges ++ indexed)
      (d.documents.filter answer.rejects ++ rejected) exhausted where
  once := by
    have hsplit := perm_filter_three fun _ hdoc => Answer.verdict_cases ha hd hdoc
    have honce := h.once
    rw [hdocs] at honce
    refine List.Perm.trans ?_ ((honce.append_left _).trans hsplit)
    simp only [List.append_assoc]
    exact (List.perm_append_comm_assoc _ _ _).append_left _
  indexed doc hdoc := by
    rcases List.mem_append.1 hdoc with hdoc | hdoc
    · exact ⟨_, List.mem_cons_self, List.mem_filter.1 hdoc⟩
    · obtain ⟨h, hh, hprop⟩ := h.indexed doc hdoc
      exact ⟨h, List.mem_cons_of_mem _ hh, hprop⟩
  rejected doc hdoc := by
    rcases List.mem_append.1 hdoc with hdoc | hdoc
    · exact ⟨_, List.mem_cons_self, List.mem_filter.1 hdoc⟩
    · obtain ⟨h, hh, hprop⟩ := h.rejected doc hdoc
      exact ⟨h, List.mem_cons_of_mem _ hh, hprop⟩
  exhausted doc hdoc := by
    obtain ⟨hcount, hall⟩ := h.exhausted doc hdoc
    refine ⟨by rw [List.length_cons]; omega, fun h' hh => ?_⟩
    rcases List.mem_cons.1 hh with rfl | hh
    · have hmem : doc ∈ d'.documents := h.once.subset (List.mem_append_right _ hdoc)
      rw [hdocs] at hmem
      exact List.mem_filter.1 hmem
    · exact hall h' hh

end Verdicts

/-- A request follows another: it has the reopened documents, in their order, and the one before did
not fail for good. -/
structure Hearing.Follows (h h' : Hearing) : Prop where
  documents : h'.delivery.documents = h.delivery.documents.filter h.answer.reopens
  repeatable : ∀ e, h.answer = .error e → e.isRetryable = true

/-- The documents of a request are among those that an earlier answer reopened. -/
def Hearing.Reopens (h h' : Hearing) : Prop :=
  ∀ doc ∈ h'.delivery.documents, doc ∈ h.delivery.documents ∧ h.answer.reopens doc = true

theorem Hearing.Follows.reopens {h h' : Hearing} (hf : h.Follows h') : h.Reopens h' := by
  intro doc hdoc
  rw [hf.documents] at hdoc
  exact List.mem_filter.1 hdoc

instance : Trans Hearing.Reopens Hearing.Reopens Hearing.Reopens where
  trans hfirst hsecond := fun doc hdoc => hfirst doc (hsecond doc hdoc).1

namespace Dialogue

variable {maxRetries : Nat} {d : Delivery} {hs : List Hearing} {t t' : Tally}

theorem head (h : Dialogue maxRetries d t hs t') : ∃ first rest, hs = first :: rest ∧ first.delivery = d := by
  cases h with
  | last | again => exact ⟨_, _, rfl, rfl⟩

/-- **No more requests than are allowed.** -/
theorem length_le (h : Dialogue maxRetries d t hs t') (hd : d.attempts ≤ maxRetries) :
    hs.length + d.attempts ≤ maxRetries + 1 := by
  induction h with
  | last =>
    rw [List.length_singleton]
    omega
  | again hnext _ ih =>
    obtain ⟨hattempts, hle⟩ := Delivery.attempts_of_settle hnext
    have hrest := ih (by omega)
    rw [List.length_cons]
    omega

/-- **Each request follows** the one before it, and its documents are among those of the first. -/
theorem follows (h : Dialogue maxRetries d t hs t') (hd : (d.documents.map Document.id).Nodup)
    (ha : ∀ h ∈ hs, h.answer.Itemwise h.delivery.documents) :
    hs.IsChain Hearing.Follows ∧ ∀ h ∈ hs, h.delivery.documents.Sublist d.documents := by
  induction h with
  | last => exact ⟨List.isChain_singleton _, fun h hh => by
      rw [List.mem_singleton.1 hh]
      exact List.Sublist.refl _⟩
  | @again d d' backoff a answer hs t hnext hrest ih =>
    have hanswer : answer.Itemwise d.documents := ha _ List.mem_cons_self
    have hreopened : d'.documents = d.documents.filter answer.reopens := by
      rcases Delivery.settle_verdicts hd hanswer with ⟨hnone, -⟩ | ⟨next, hsome, hdocs, -⟩
      · exact absurd (hnext.symm.trans hnone) (Option.some_ne_none d')
      · rwa [Option.some.inj (hsome.symm.trans hnext)] at hdocs
    have hsub : d'.documents.Sublist d.documents := by
      rw [hreopened]
      exact List.filter_sublist
    obtain ⟨hchain, hrequests⟩ := ih (hd.sublist (hsub.map _)) fun h hh =>
      ha h (List.mem_cons_of_mem _ hh)
    obtain ⟨first, rest, rfl, hfirst⟩ := hrest.head
    refine ⟨List.isChain_cons_cons.2 ⟨?_, hchain⟩, fun h hh => ?_⟩
    · refine ⟨by rw [hfirst]; exact hreopened, fun e he => ?_⟩
      obtain rfl : answer = .error e := he
      exact Delivery.repeatable_of_settle hnext
    · rcases List.mem_cons.1 hh with rfl | hh
      · exact List.Sublist.refl _
      · exact (hrequests h hh).trans hsub

/-- **No document comes back**: what is sent after an answer was reopened by it. -/
theorem reopens (h : Dialogue maxRetries d t hs t') (hd : (d.documents.map Document.id).Nodup)
    (ha : ∀ h ∈ hs, h.answer.Itemwise h.delivery.documents) : hs.Pairwise Hearing.Reopens := by
  have hchain := (h.follows hd ha).1
  exact (hchain.imp fun _ _ => Hearing.Follows.reopens).pairwise

/-- **What becomes of the documents**: each is indexed once or lost once, for a reason. -/
theorem verdicts (h : Dialogue maxRetries d t hs t') (hd : (d.documents.map Document.id).Nodup)
    (hle : d.attempts ≤ maxRetries) (ha : ∀ h ∈ hs, h.answer.Itemwise h.delivery.documents) :
    ∃ indexed rejected exhausted, Verdicts maxRetries d hs indexed rejected exhausted ∧
      t' = { t with
        flushed := t.flushed + indexed.length
        lost := t.lost + (rejected.length + exhausted.length) } := by
  induction h with
  | @last d backoff a answer hnext =>
    have hanswer : answer.Itemwise d.documents := ha _ List.mem_cons_self
    rcases Delivery.settle_verdicts hd hanswer with ⟨-, hdone, htally⟩ | ⟨next, hsome, -⟩
    · exact ⟨_, _, _, .last hd hle hanswer hdone, htally⟩
    · exact absurd (hsome.symm.trans hnext) (Option.some_ne_none next)
  | @again d d' backoff a answer hs t hnext hrest ih =>
    have hanswer : answer.Itemwise d.documents := ha _ List.mem_cons_self
    rcases Delivery.settle_verdicts hd hanswer with
      ⟨hnone, -⟩ | ⟨next, hsome, hdocs, hattempts, hmax, htally⟩
    · exact absurd (hnext.symm.trans hnone) (Option.some_ne_none d')
    obtain rfl : next = d' := Option.some.inj (hsome.symm.trans hnext)
    have hids : (next.documents.map Document.id).Nodup := by
      rw [hdocs]
      exact hd.sublist (List.filter_sublist.map _)
    obtain ⟨indexed, rejected, exhausted, hv, ht⟩ := ih hids (by omega) fun h hh =>
      ha h (List.mem_cons_of_mem _ hh)
    refine ⟨_, _, exhausted, hv.again hd hanswer hdocs hattempts, ?_⟩
    rw [ht, htally]
    simp only [List.length_append, Nat.add_assoc]

end Dialogue

/-! ### Batches -/

namespace Desk

variable {σ : Type} {sink : Sink σ} {d d' e : Desk σ} {rs : List (List Document)} {hs : List Hearing}

/-- The desk with one request put ahead of the writer. -/
def enqueueBatch (d : Desk σ) (documents : List Document) : Desk σ :=
  { d with writer := { d.writer with ahead := [documents] } }

/-- The deliveries that the writer has before it, the present one first. -/
def deliveries (d : Desk σ) : List Delivery :=
  match d.writer.phase with
  | .resting _ delivery | .waiting _ delivery => delivery :: d.writer.ahead.map Delivery.of
  | .ready | .stopped => d.writer.ahead.map Delivery.of

theorem deliveries_of_ready (hp : d.writer.phase = .ready) :
    d.deliveries = d.writer.ahead.map Delivery.of := by
  unfold deliveries
  rw [hp]

theorem deliveries_hear (delivery : Delivery) : (d.hear sink delivery).deliveries =
    (d.settlement sink delivery).next.toList ++ d.writer.ahead.map Delivery.of := by
  rw [hear_eq]
  unfold deliveries
  dsimp only [Settlement.phase]
  cases (d.settlement sink delivery).next <;> rfl

theorem deliveries_step (ha : d.Alone) (h : Step sink d d') :
    (d.hearing? sink = none ∧ d'.deliveries = d.deliveries ∧ d'.account = d.account) ∨
    ∃ delivery, d.hearing? sink = some (d.answered sink delivery) ∧ d' = d.hear sink delivery ∧
      d.deliveries = delivery :: d.writer.ahead.map Delivery.of := by
  rcases ha.step_cases h with ⟨_, delivery, hp, rfl⟩ | ⟨_, delivery, hp, hw, rfl⟩ | ⟨_, _, hp, hb, rfl⟩
  · left
    rw [send_eq]
    simp [deliveries, hearing?, hp]
  · refine Or.inr ⟨delivery, ?_, rfl, ?_⟩
    · rw [hearing?, hp]
      exact if_pos hw
    · rw [deliveries, hp]
  · left
    simp [deliveries, hearing?, hp, hb, rest]

/-- **A run with one delivery** until it is done is a dialogue. -/
theorem Runs.dialogue (h : Runs sink d rs hs e) (ha : d.Alone) (he : e.deliveries = []) :
    (d.deliveries = [] → hs = [] ∧ e.account.tally = d.account.tally) ∧
    ∀ delivery, d.deliveries = [delivery] →
      Dialogue d.writer.settings.maxRetries delivery d.account.tally hs e.account.tally := by
  induction h with
  | done d =>
    refine ⟨fun _ => ⟨rfl, rfl⟩, fun delivery hone => ?_⟩
    rw [he] at hone
    cases hone
  | @move d d' e rs hs hstep _ ih =>
    have hstep' := step_of_step? hstep
    obtain ⟨hnil, hone⟩ := ih (ha.step hstep') he
    rw [settings_step hstep'] at hone
    rcases deliveries_step ha hstep' with ⟨hheard, hsame, haccount⟩ | ⟨delivery, hheard, rfl, hfirst⟩
    · rw [hsame, haccount] at hnil hone
      rw [hheard]
      exact ⟨hnil, hone⟩
    · rw [hheard]
      refine ⟨fun hdone => ?_, fun first hsingle => ?_⟩
      · rw [hdone] at hfirst
        cases hfirst
      · obtain ⟨rfl, hrest⟩ := List.cons.inj (hfirst.symm.trans hsingle)
        rw [deliveries_hear, hrest, List.append_nil] at hnil hone
        have htally : (List.foldl Account.note d.account
            (sink.answer d.writer.settings.index delivery.documents d.store).2.1).tally =
              d.account.tally := tally_foldl_note _ _
        have hsettled : (d.hear sink delivery).account = (d.settlement sink delivery).account := by
          rw [hear_eq]
        rw [hsettled] at hnil hone
        rw [← htally]
        cases hnext : (d.settlement sink delivery).next with
        | none =>
          obtain ⟨rfl, htally'⟩ := hnil (by rw [hnext]; rfl)
          rw [htally']
          exact .last hnext
        | some next => exact .again hnext (hone next (by rw [hnext]; rfl))
  | wait now _ ih => exact ih (ha.wait now) he

/-- **The requests for a batch**, whatever the store answers as long as it has one item for each
document. There is an end to them, after at most one more than the repetitions allowed. The first one
has all documents, and each of the others has just those of the one before it that its answer reopened,
so none that was acknowledged or rejected; nothing follows a request that failed for good. Each document
is counted once: as flushed if it was acknowledged, and as lost if it was rejected or if it was in all
requests that are allowed. -/
theorem batch_delivered (ha : d.Alone) (hp : d.writer.phase = .ready) {documents : List Document}
    (hne : documents ≠ []) (hids : (documents.map Document.id).Nodup)
    (hitems : ∀ h ∈ (d.enqueueBatch documents).heard sink none,
      h.answer.Itemwise h.delivery.documents) :
    let delivered := (d.enqueueBatch documents).run sink none
    let heard := (d.enqueueBatch documents).heard sink none
    let maxRetries := d.writer.settings.maxRetries
    delivered.writer.phase = .ready ∧ delivered.writer.ahead = [] ∧
    (d.enqueueBatch documents).requests sink none = heard.map (fun h => h.delivery.documents) ∧
    heard.length ≤ maxRetries + 1 ∧
    (∃ first rest, heard = first :: rest ∧ first.delivery.documents = documents) ∧
    (heard.IsChain fun h h' =>
      h'.delivery.documents = h.delivery.documents.filter h.answer.reopens) ∧
    (heard.Pairwise fun h h' => ∀ doc ∈ h'.delivery.documents,
      h.answer.acknowledges doc = false ∧ h.answer.rejects doc = false) ∧
    (∀ before h after e, heard = before ++ h :: after → h.answer = .error e →
      e.isRetryable = false → after = []) ∧
    ∃ indexed rejected exhausted : List Document,
      (indexed ++ rejected ++ exhausted).Perm documents ∧
      delivered.account.tally = { d.account.tally with
        flushed := d.account.tally.flushed + indexed.length
        lost := d.account.tally.lost + (rejected.length + exhausted.length) } ∧
      (∀ doc ∈ indexed, ∃ h ∈ heard, doc ∈ h.delivery.documents ∧ h.answer.acknowledges doc = true) ∧
      (∀ doc ∈ rejected, ∃ h ∈ heard, doc ∈ h.delivery.documents ∧ h.answer.rejects doc = true) ∧
      (∀ doc ∈ exhausted, heard.length = maxRetries + 1 ∧
        ∀ h ∈ heard, doc ∈ h.delivery.documents ∧ h.answer.reopens doc = true) := by
  intro delivered heard maxRetries
  have ha' : (d.enqueueBatch documents).Alone := ha.ahead _
  have hahead : ∀ b ∈ (d.enqueueBatch documents).writer.ahead, b ≠ [] := by
    intro b hb
    rw [List.mem_singleton.1 hb]
    exact hne
  obtain ⟨hready, hdone⟩ : delivered.writer.phase = .ready ∧ delivered.writer.ahead = [] :=
    ha'.ready_run hahead
  have hend : delivered.deliveries = [] := by
    rw [deliveries_of_ready hready, hdone]
    rfl
  have hbegin : (d.enqueueBatch documents).deliveries = [.of documents] := deliveries_of_ready hp
  have hdialogue : Dialogue maxRetries (.of documents) d.account.tally heard delivered.account.tally :=
    ((runs_run sink none _).dialogue ha' hend).2 _ hbegin
  obtain ⟨hchain, hsub⟩ := hdialogue.follows hids hitems
  obtain ⟨first, rest, hheard, hfirst⟩ := hdialogue.head
  obtain ⟨indexed, rejected, exhausted, hv, htally⟩ :=
    hdialogue.verdicts hids (Nat.zero_le _) hitems
  refine ⟨hready, hdone, requests_eq_heard none hp hready, hdialogue.length_le (Nat.zero_le _),
    ⟨first, rest, hheard, by rw [hfirst]; rfl⟩, hchain.imp fun _ _ hf => hf.documents, ?_, ?_,
    indexed, rejected, exhausted, hv.once, htally, hv.indexed, hv.rejected, hv.exhausted⟩
  · refine (hdialogue.reopens hids hitems).imp_of_mem fun {h h'} hh _ hr doc hdoc => ?_
    obtain ⟨hmem, hreopened⟩ := hr doc hdoc
    have hnodup := hids.sublist ((hsub h hh).map Document.id)
    rcases Answer.verdict_cases (hitems h hh) hnodup hmem with ⟨-, -, hno⟩ | ⟨-, -, hno⟩ | ⟨hno, hno', -⟩
    · exact absurd (hreopened.symm.trans hno) (by decide)
    · exact absurd (hreopened.symm.trans hno) (by decide)
    · exact ⟨hno, hno'⟩
  · intro before h after e hsplit hanswer hfinal
    cases after with
    | nil => rfl
    | cons h' after =>
      rw [hsplit, List.isChain_append] at hchain
      have hfollows : h.Follows h' := (List.isChain_cons_cons.1 hchain.2.1).1
      exact absurd ((hfollows.repeatable e hanswer).symm.trans hfinal) (by decide)

/-- The first request of three documents fails. The second one indexes one of them and rejects another,
and the third document is lost after the last request. -/
theorem batch_delivered_in_part :
    let documents : List Document := [⟨"a", "1"⟩, ⟨"b", "2"⟩, ⟨"c", "3"⟩]
    let config : Config := { Config.default with maxWriteRetries := 2 }
    let script : List Cue := [.fail (.server "busy"),
      .reply [.failed "c" 400 "malformed", .ok "a", .failed "b" 429 "busy"],
      .reply [.failed "b" 503 "busy"]]
    let d : Desk ScriptedStore := .of config.queue config.writer ⟨.empty, script, []⟩
    let delivered := (d.enqueueBatch documents).run ScriptedStore.sink none
    let heard := (d.enqueueBatch documents).heard ScriptedStore.sink none
    d.Alone ∧ d.writer.phase = .ready ∧ documents ≠ [] ∧ (documents.map Document.id).Nodup ∧
      (∀ h ∈ heard, h.answer.Itemwise h.delivery.documents) ∧
      ((d.enqueueBatch documents).requests ScriptedStore.sink none).map
        (fun b => b.map Document.id) = [["a", "b", "c"], ["a", "b", "c"], ["b"]] ∧
      delivered.account.tally = { Tally.zero with flushed := 1, lost := 2 } ∧
      heard.length ≤ 3 ∧ heard.Pairwise fun h h' => ∀ doc ∈ h'.delivery.documents,
        h.answer.acknowledges doc = false ∧ h.answer.rejects doc = false := by
  intro documents config script d delivered heard
  have ha : d.Alone := ⟨⟨rfl, rfl, rfl, rfl, nofun⟩, rfl⟩
  have hne : documents ≠ [] := List.cons_ne_nil _ _
  have hids : (documents.map Document.id).Nodup := by decide
  have hitems : ∀ h ∈ heard, h.answer.Itemwise h.delivery.documents := by decide +kernel
  have htally : delivered.account.tally = { Tally.zero with flushed := 1, lost := 2 } := by
    decide +kernel
  obtain ⟨-, -, -, hlength, -, -, hnever, -⟩ := batch_delivered ha rfl hne hids hitems
  exact ⟨ha, rfl, hne, hids, hitems, by decide +kernel, htally, hlength, hnever⟩

end Desk

end SpanRelay

import Mathlib.Data.List.Perm.Subperm
import SpanRelay.Proofs.Writer.Settlement

/-! # The fates of documents

The items of an answer belong to the documents by their places, and each item settles its document or
leaves it open. The documents that are sent again are chosen by the ids of the items, though. A
`Hearing` is an answer with what it settles, and `Hearing.fates` are the documents that it counts,
each as flushed or as lost (`Delivery.tally_settle`). If the documents that may be sent again are
those that are not settled, the answer is `Faithful`, and each document is counted or sent again; if
they are not, some document is neither (`Delivery.covers_hearing`). -/

namespace SpanRelay

/-- What a document is counted as. -/
inductive Fate
  | flushed
  | lost
deriving DecidableEq, Repr

/-- The tally with some more documents counted. -/
def Tally.count (t : Tally) (fates : List Fate) : Tally :=
  { t with flushed := t.flushed + fates.count .flushed, lost := t.lost + fates.count .lost }

theorem Tally.count_nil (t : Tally) : t.count [] = t := rfl

theorem Tally.count_replicate_lost (t : Tally) (n : Nat) :
    t.count (List.replicate n .lost) = { t with lost := t.lost + n } := by
  simp [count, List.count_replicate]

theorem Tally.count_append (t : Tally) (fates more : List Fate) :
    t.count (fates ++ more) = (t.count fates).count more := by
  simp only [count, List.count_append, Nat.add_assoc]

/-! ### Items by their places -/

/-- What the document of an item is counted as, unless it may be sent again. -/
def BulkItem.fate? (i : BulkItem) : Option Fate :=
  if i.isSuccess then some .flushed else if i.isRetryable then none else some .lost

/-- The documents that the items at their places settle. -/
def settledBy (ds : List Document) (items : List BulkItem) : List (Document × Fate) :=
  (ds.zip items).filterMap fun p => p.2.fate?.map fun fate => (p.1, fate)

/-- The documents whose own items are worth a repetition. -/
def openBy (ds : List Document) (items : List BulkItem) : List Document :=
  ((ds.zip items).filter fun p => p.2.isRetryable).map Prod.fst

theorem fate?_cases (i : BulkItem) :
    (i.isRetryable = true ∧ i.isSuccess = false ∧ i.fate? = none) ∨
    (i.isRetryable = false ∧ i.isSuccess = true ∧ i.fate? = some .flushed) ∨
    (i.isRetryable = false ∧ i.isSuccess = false ∧ i.fate? = some .lost) := by
  unfold BulkItem.fate?
  cases hs : i.isSuccess with
  | true => simp [BulkItem.isRetryable, hs]
  | false => cases hr : i.isRetryable <;> simp

theorem perm_settledBy : ∀ {ds : List Document} {items : List BulkItem}, items.length = ds.length →
    ((settledBy ds items).map Prod.fst ++ openBy ds items).Perm ds
  | [], _, _ => by simp [settledBy, openBy]
  | _ :: _, [], h => by simp at h
  | d :: ds, i :: items, h => by
    have ih := perm_settledBy (Nat.succ.inj h)
    unfold settledBy openBy at ih ⊢
    rw [List.zip_cons_cons, List.filterMap_cons, List.filter_cons]
    rcases fate?_cases i with ⟨hr, -, hf⟩ | ⟨hr, -, hf⟩ | ⟨hr, -, hf⟩
    · simp only [hr, hf, Option.map_none, if_true, List.map_cons]
      exact List.perm_middle.trans (ih.cons d)
    all_goals
      simp only [hr, hf, Option.map_some, Bool.false_eq_true, if_false, List.map_cons,
        List.cons_append]
      exact ih.cons d

theorem length_openBy : ∀ {ds : List Document} {items : List BulkItem}, items.length = ds.length →
    (openBy ds items).length = (items.filter BulkItem.isRetryable).length
  | [], [], _ => rfl
  | [], _ :: _, h => by simp at h
  | _ :: _, [], h => by simp at h
  | d :: ds, i :: items, h => by
    have ih := length_openBy (Nat.succ.inj h)
    unfold openBy at ih ⊢
    rw [List.zip_cons_cons, List.filter_cons, List.filter_cons]
    cases hr : i.isRetryable <;> simpa using ih

theorem count_settledBy {ds : List Document} {response : BulkResponse}
    (h : response.items.length = ds.length) :
    ((settledBy ds response.items).map Prod.snd).count .flushed =
        ds.length - response.failures.length ∧
      ((settledBy ds response.items).map Prod.snd).count .lost =
        (response.failures.filter fun i => !i.isRetryable).length := by
  unfold BulkResponse.failures
  generalize response.items = items at h ⊢
  induction ds generalizing items with
  | nil =>
    rw [List.length_eq_zero_iff.1 h]
    exact ⟨rfl, rfl⟩
  | cons d ds ih =>
    cases items with
    | nil => simp at h
    | cons i items =>
      obtain ⟨hflushed, hlost⟩ := ih items (Nat.succ.inj h)
      have hle := List.length_filter_le (fun i => !BulkItem.isSuccess i) items
      have hlen : items.length = ds.length := Nat.succ.inj h
      unfold settledBy at hflushed hlost ⊢
      rw [List.zip_cons_cons, List.filterMap_cons]
      rcases fate?_cases i with ⟨hr, hs, hf⟩ | ⟨hr, hs, hf⟩ | ⟨hr, hs, hf⟩
      · simp [hr, hs, hf, hflushed, hlost]
      · simp [hs, hf, hflushed, hlost]
        omega
      · simp [hr, hs, hf, hflushed, hlost]

/-! ### Hearings -/

/-- An answer has one item for each document, if it has items. -/
def Answer.Aligned (documents : List Document) (answer : Answer) : Prop :=
  ∀ response, answer = .ok response → response.items.length = documents.length

/-- The answer to a delivery, and what it settles. -/
structure Hearing where
  delivery : Delivery
  answer : Answer
  settlement : Settlement

namespace Hearing

/-- The documents that their items settle. -/
def settled (h : Hearing) : List (Document × Fate) :=
  match h.answer with
  | .ok response => settledBy h.delivery.documents response.items
  | .error _ => []

/-- The documents whose own items are worth a repetition, or all if the request failed. -/
def unsettled (h : Hearing) : List Document :=
  match h.answer with
  | .ok response => openBy h.delivery.documents response.items
  | .error _ => h.delivery.documents

/-- The documents that the answer allows to send again. -/
def remaining (h : Hearing) : List Document :=
  match h.answer with
  | .ok response => Delivery.retained h.delivery.documents response.failures
  | .error _ => h.delivery.documents

/-- The documents that are counted: those settled by their items, and those given up. -/
def fates (h : Hearing) : List (Document × Fate) :=
  h.settled ++ if h.settlement.next.isNone then h.remaining.map fun doc => (doc, .lost) else []

/-- The documents that may be sent again are those that are not settled. -/
def Faithful (h : Hearing) : Prop :=
  ∀ doc ∈ h.delivery.documents, doc ∈ h.remaining ↔ doc ∈ h.unsettled

instance (h : Hearing) : Decidable h.Faithful :=
  inferInstanceAs (Decidable
    (∀ doc ∈ h.delivery.documents, doc ∈ h.remaining ↔ doc ∈ h.unsettled))

end Hearing

/-! ### Settlements -/

/-- A settlement leaves some documents, which the tally `t` does not count: they are lost, or all of
them are sent again. -/
def Settlement.Leaves (s : Settlement) (t : Tally) (ds : List Document) : Prop :=
  (s.next = none ∧ s.account.tally = t.count (List.replicate ds.length .lost)) ∨
    ∃ d, s.next = some d ∧ d.documents = ds ∧ s.account.tally = t

namespace Delivery

variable (maxRetries : Nat) (backoff : Backoff) (a : Account) {d : Delivery}

theorem leaves_retry (d : Delivery) :
    (d.retry maxRetries backoff a).Leaves a.tally d.documents := by
  unfold retry Settlement.Leaves
  dsimp only
  split
  · exact Or.inl ⟨rfl, (Tally.count_replicate_lost _ _).symm⟩
  · exact Or.inr ⟨_, rfl, rfl, rfl⟩

theorem leaves_settleFailures {response : BulkResponse}
    (hal : response.items.length = d.documents.length) :
    (d.settleFailures maxRetries backoff a response.failures).Leaves
      (a.tally.count ((settledBy d.documents response.items).map Prod.snd))
      (retained d.documents response.failures) := by
  obtain ⟨hflushed, hlost⟩ := count_settledBy hal
  unfold settleFailures
  dsimp only
  rw [documents_foldl_addReason]
  generalize response.failures.foldl (fun d i => d.addReason (itemReason i)) d = named
  generalize (response.failures.filter fun i => !i.isRetryable).length = rejected at hlost ⊢
  -- the account of the items alone
  obtain ⟨a', ha', htally⟩ : ∃ a', a' = (if 0 < rejected then
        ((a.addFlushed (d.documents.length - response.failures.length)).addLost rejected).note
          (.rejected rejected named.reasons)
      else a.addFlushed (d.documents.length - response.failures.length)) ∧
      a'.tally = a.tally.count ((settledBy d.documents response.items).map Prod.snd) := by
    refine ⟨_, rfl, ?_⟩
    rw [Tally.count, hflushed, hlost]
    split
    · rfl
    · rename_i h0
      rw [Nat.eq_zero_of_not_pos h0]
      rfl
  rw [← ha', ← htally]
  split
  · rename_i hempty
    rw [List.isEmpty_iff.1 hempty]
    exact Or.inl ⟨rfl, rfl⟩
  · exact leaves_retry maxRetries backoff.increase a'
      { named with documents := retained d.documents response.failures }

/-- What is heard of an answer. -/
def hearing (d : Delivery) (answer : Answer) : Hearing :=
  ⟨d, answer, d.settle maxRetries backoff a answer⟩

/-- **What an answer leaves**: the documents that its items settle are counted, and what remains is
lost or sent again. -/
theorem leaves_settle {answer : Answer} (hal : answer.Aligned d.documents) :
    (d.settle maxRetries backoff a answer).Leaves
      (a.tally.count ((d.hearing maxRetries backoff a answer).settled.map Prod.snd))
      (d.hearing maxRetries backoff a answer).remaining := by
  unfold Hearing.settled Hearing.remaining hearing settle
  cases answer with
  | error e =>
    dsimp only
    split
    · exact leaves_retry maxRetries backoff.increase a (d.addReason e.message)
    · exact Or.inl ⟨rfl, (Tally.count_replicate_lost _ _).symm⟩
  | ok response =>
    dsimp only
    split
    · exact leaves_settleFailures maxRetries backoff a (hal response rfl)
    · rename_i hf
      obtain ⟨hnone, hretained⟩ := retained_of_not_hasFailures d.documents hf
      obtain ⟨hflushed, hlost⟩ := count_settledBy (hal response rfl)
      refine Or.inl ⟨rfl, ?_⟩
      rw [hretained, List.length_nil, List.replicate_zero, Tally.count_nil, Tally.count, hflushed,
        hlost, hnone]
      rfl

/-- **The counters** count the documents that the answer counts. -/
theorem tally_settle {answer : Answer} (hal : answer.Aligned d.documents) :
    (d.settle maxRetries backoff a answer).account.tally =
      a.tally.count ((d.hearing maxRetries backoff a answer).fates.map Prod.snd) := by
  have hlost : ∀ ds : List Document,
      (ds.map fun doc => (doc, Fate.lost)).map Prod.snd = List.replicate ds.length .lost :=
    fun ds => by rw [List.map_map]; exact List.map_const' ..
  unfold Hearing.fates
  rw [List.map_append, Tally.count_append]
  rcases leaves_settle maxRetries backoff a hal with ⟨hnext, ht⟩ | ⟨d', hnext, -, ht⟩
  · rw [ht, hearing, hnext]
    simp only [Option.isNone_none, if_true, hlost]
  · rw [ht, hearing, hnext]
    rfl

/-- What an answer counts and what it leaves to be sent are together what it settles and what
remains. -/
theorem fates_append_left {answer : Answer} (hal : answer.Aligned d.documents) :
    let h := d.hearing maxRetries backoff a answer
    h.fates.map Prod.fst ++ h.settlement.left = h.settled.map Prod.fst ++ h.remaining := by
  intro h
  have hfst : ∀ ds : List Document, (ds.map fun doc => (doc, Fate.lost)).map Prod.fst = ds :=
    fun ds => by rw [List.map_map]; exact List.map_id ds
  unfold Hearing.fates Settlement.left
  rw [List.map_append, List.append_assoc]
  rcases leaves_settle maxRetries backoff a hal with ⟨hnext, -⟩ | ⟨d', hnext, hd, -⟩
  · have hn : h.settlement.next = none := hnext
    rw [hn]
    simp [hfst]
  · have hn : h.settlement.next = some d' := hnext
    rw [hn]
    simp [hd, h]

theorem length_retained_le {documents : List Document} (hd : (documents.map Document.id).Nodup)
    (failures : List BulkItem) :
    (retained documents failures).length ≤ (failures.filter BulkItem.isRetryable).length := by
  have hsub : (retained documents failures).map Document.id ⊆
      (failures.filter BulkItem.isRetryable).map BulkItem.id := by
    intro id hid
    obtain ⟨doc, hdoc, rfl⟩ := List.mem_map.1 hid
    exact List.contains_iff_mem.1 (List.mem_filter.1 hdoc).2
  have hnodup := hd.sublist ((retained_sublist documents failures).map Document.id)
  simpa using (List.subperm_of_subset hnodup hsub).length_le

end Delivery

namespace Hearing

variable {h : Hearing}

theorem perm_settled (hal : h.answer.Aligned h.delivery.documents) :
    (h.settled.map Prod.fst ++ h.unsettled).Perm h.delivery.documents := by
  unfold settled unsettled
  cases hans : h.answer with
  | error e => exact List.Perm.refl _
  | ok response => exact perm_settledBy (hal response hans)

theorem remaining_sublist (h : Hearing) : h.remaining.Sublist h.delivery.documents := by
  unfold remaining
  cases h.answer with
  | error e => exact List.Sublist.refl _
  | ok response => exact Delivery.retained_sublist _ _

theorem length_remaining_le (hd : (h.delivery.documents.map Document.id).Nodup)
    (hal : h.answer.Aligned h.delivery.documents) : h.remaining.length ≤ h.unsettled.length := by
  unfold remaining unsettled
  cases hans : h.answer with
  | error e => exact Nat.le_refl _
  | ok response =>
    dsimp only
    rw [length_openBy (hal response hans), ← Delivery.filter_isRetryable_failures]
    exact Delivery.length_retained_le hd _

/-- As there are no more documents to send again than unsettled ones, one of the unsettled is not
sent again if they are not the same. -/
theorem exists_unsettled (hd : (h.delivery.documents.map Document.id).Nodup)
    (hal : h.answer.Aligned h.delivery.documents) (hf : ¬h.Faithful) :
    ∃ doc ∈ h.unsettled, doc ∉ h.remaining := by
  by_contra hall
  push Not at hall
  have hperm := perm_settled hal
  have hnodup : h.unsettled.Nodup :=
    (hperm.nodup_iff.2 (List.Nodup.of_map _ hd)).of_append_right
  have hsame : h.unsettled.Perm h.remaining :=
    (List.subperm_of_subset hnodup hall).perm_of_length_le (length_remaining_le hd hal)
  exact hf fun doc _ => hsame.symm.mem_iff

/-- An answer is faithful if the items of documents that may be sent again carry the ids of these. -/
theorem faithful_of_ids (hd : (h.delivery.documents.map Document.id).Nodup)
    (hal : h.answer.Aligned h.delivery.documents)
    (hids : ∀ response, h.answer = .ok response →
      ∀ p ∈ h.delivery.documents.zip response.items, p.2.isRetryable = true → p.2.id = p.1.id) :
    h.Faithful := by
  unfold Faithful remaining unsettled
  cases hans : h.answer with
  | error e => exact fun _ _ => Iff.rfl
  | ok response =>
    intro doc hdoc
    have hitems : (h.delivery.documents.zip response.items).map Prod.snd = response.items :=
      List.map_snd_zip (Nat.le_of_eq (hal response hans))
    dsimp only [Delivery.retained, BulkResponse.failures, openBy]
    rw [Delivery.filter_isRetryable_failures]
    simp only [List.mem_filter, List.contains_iff_mem, List.mem_map]
    constructor
    · rintro ⟨-, item, ⟨hitem, hr⟩, hid⟩
      rw [← hitems] at hitem
      obtain ⟨p, hp, rfl⟩ := List.mem_map.1 hitem
      -- the document in the place of the item has the same id
      refine ⟨p, ⟨hp, hr⟩, List.inj_on_of_nodup_map hd (List.of_mem_zip hp).1 hdoc ?_⟩
      rw [← hids response hans p hp hr, hid]
    · rintro ⟨p, ⟨hp, hr⟩, rfl⟩
      exact ⟨hdoc, p.2, ⟨(List.of_mem_zip hp).2, hr⟩, hids response hans p hp hr⟩

end Hearing

/-! ### What is covered -/

/-- Some documents are counted and some are left. If that was done faithfully, each of all documents
is one of them, once; if not, one of them is none. -/
structure Covers (ds counted left : List Document) (faithful : Prop) : Prop where
  subset : counted ⊆ ds
  sublist : left.Sublist ds
  once : faithful → (counted ++ left).Perm ds
  missed : ¬faithful → ∃ doc ∈ ds, doc ∉ counted ∧ doc ∉ left

namespace Covers

variable {ds es counted more left rest : List Document} {p q : Prop}

theorem refl (ds : List Document) : Covers ds [] ds True :=
  ⟨List.nil_subset _, List.Sublist.refl _, fun _ => List.Perm.refl _, fun h => absurd trivial h⟩

theorem append (h : Covers ds counted left p) (es : List Document) (hd : (ds ++ es).Nodup) :
    Covers (ds ++ es) counted (left ++ es) p where
  subset := fun _ hdoc => List.mem_append_left _ (h.subset hdoc)
  sublist := h.sublist.append (List.Sublist.refl _)
  once hp := by
    rw [← List.append_assoc]
    exact (h.once hp).append_right _
  missed hp := by
    obtain ⟨doc, hdoc, hc, hl⟩ := h.missed hp
    have hdisj := (List.nodup_append'.1 hd).2.2
    refine ⟨doc, List.mem_append_left _ hdoc, hc, fun hmem => ?_⟩
    exact (List.mem_append.1 hmem).elim hl (hdisj hdoc)

theorem trans (h : Covers ds counted left p) (h' : Covers left more rest q) (hd : ds.Nodup) :
    Covers ds (counted ++ more) rest (p ∧ q) where
  subset := fun doc hdoc => (List.mem_append.1 hdoc).elim (fun hc => h.subset hc)
    fun hm => h.sublist.subset (h'.subset hm)
  sublist := h'.sublist.trans h.sublist
  once hpq := by
    rw [List.append_assoc]
    exact ((h'.once hpq.2).append_left counted).trans (h.once hpq.1)
  missed hpq := by
    by_cases hp : p
    · obtain ⟨doc, hdoc, hm, hr⟩ := h'.missed fun hq => hpq ⟨hp, hq⟩
      -- what is left was not counted
      have hdisj := (List.nodup_append'.1 ((h.once hp).nodup_iff.2 hd)).2.2
      refine ⟨doc, h.sublist.subset hdoc, fun hmem => ?_, hr⟩
      exact (List.mem_append.1 hmem).elim (fun hc => hdisj hc hdoc) hm
    · obtain ⟨doc, hdoc, hc, hl⟩ := h.missed hp
      refine ⟨doc, hdoc, fun hmem => ?_, fun hr => hl (h'.sublist.subset hr)⟩
      exact (List.mem_append.1 hmem).elim hc fun hm => hl (h'.subset hm)

theorem count_iff (h : Covers ds counted [] p) (hd : (ds.map Document.id).Nodup) :
    (∀ doc ∈ ds, (counted.map Document.id).count doc.id = 1) ↔ p := by
  constructor
  · intro hone
    by_contra hp
    obtain ⟨doc, hdoc, hc, -⟩ := h.missed hp
    have hmem : doc.id ∈ counted.map Document.id :=
      List.count_pos_iff.1 (by rw [hone doc hdoc]; exact Nat.one_pos)
    obtain ⟨other, hother, hid⟩ := List.mem_map.1 hmem
    rw [List.inj_on_of_nodup_map hd (h.subset hother) hdoc hid] at hother
    exact hc hother
  · intro hp doc hdoc
    have hperm := (h.once hp).map Document.id
    rw [List.append_nil] at hperm
    exact List.count_eq_one_of_mem (hperm.nodup_iff.2 hd) (hperm.mem_iff.2 (List.mem_map_of_mem hdoc))

end Covers

/-- **What an answer covers**: each document is counted or sent again exactly if it is faithful. -/
theorem Delivery.covers_hearing (maxRetries : Nat) (backoff : Backoff) (a : Account) {d : Delivery}
    {answer : Answer} (hd : (d.documents.map Document.id).Nodup)
    (hal : answer.Aligned d.documents) :
    let h := d.hearing maxRetries backoff a answer
    Covers d.documents (h.fates.map Prod.fst) h.settlement.left h.Faithful := by
  intro h
  have hsplit : h.fates.map Prod.fst ++ h.settlement.left = h.settled.map Prod.fst ++ h.remaining :=
    fates_append_left maxRetries backoff a hal
  have hperm : (h.settled.map Prod.fst ++ h.unsettled).Perm d.documents := Hearing.perm_settled hal
  have hnodup := hperm.nodup_iff.2 (List.Nodup.of_map _ hd)
  refine ⟨fun doc hdoc => ?_, settle_left_sublist _ _ _ _ _, fun hf => ?_, fun hf => ?_⟩
  · have hmem := List.mem_append_left h.settlement.left hdoc
    rw [hsplit] at hmem
    rcases List.mem_append.1 hmem with hs | hr
    · exact hperm.subset (List.mem_append_left _ hs)
    · exact h.remaining_sublist.subset hr
  · rw [hsplit]
    refine (List.Perm.append_left _ ?_).trans hperm
    refine (List.perm_ext_iff_of_nodup ((List.Nodup.of_map _ hd).sublist h.remaining_sublist)
      hnodup.of_append_right).2 fun doc => ⟨fun hdoc => ?_, fun hdoc => ?_⟩
    · exact (hf doc (h.remaining_sublist.subset hdoc)).1 hdoc
    · exact (hf doc (hperm.subset (List.mem_append_right _ hdoc))).2 hdoc
  · obtain ⟨doc, hu, hr⟩ := Hearing.exists_unsettled hd hal hf
    have hs : doc ∉ h.settled.map Prod.fst := fun hs => (List.nodup_append'.1 hnodup).2.2 hs hu
    have hnone : doc ∉ h.fates.map Prod.fst ++ h.settlement.left := by
      rw [hsplit]
      exact fun hmem => (List.mem_append.1 hmem).elim hs hr
    exact ⟨doc, hperm.subset (List.mem_append_right _ hu),
      fun hc => hnone (List.mem_append_left _ hc), fun hl => hnone (List.mem_append_right _ hl)⟩

end SpanRelay

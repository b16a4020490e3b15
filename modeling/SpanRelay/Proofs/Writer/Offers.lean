import SpanRelay.Proofs.Writer.Course

/-! # Offers

A desk and its store have a history of `Incident`s: the occurrences at the desk, and changes of the
store that come from outside. `Desk.offers` are the spans that are offered to the queue in the course
of it, each with what became of it, and `Desk.accepted` those that were accepted, in their order. -/

namespace SpanRelay

/-- What may happen at a desk and to its store. -/
inductive Incident (σ : Type)
  | occurrence (o : Occurrence)
  /-- The store is changed by someone else. -/
  | change (f : σ → σ)

/-- The span that is offered to the queue. -/
def Incident.offered? {σ : Type} : Incident σ → Option Span
  | occurrence (.offer span) => some span
  | occurrence .move | occurrence (.wait _) | occurrence .stop | occurrence .orphan | change _ => none

namespace Desk

variable {σ : Type} (sink : Sink σ)

/-- The desk after an incident. -/
def undergo (d : Desk σ) : Incident σ → Desk σ
  | .occurrence o => d.occur sink o
  | .change f => { d with store := f d.store }

/-- The desk after some incidents. -/
def history (d : Desk σ) (is : List (Incident σ)) : Desk σ := is.foldl (undergo sink) d

/-- The spans that are offered in the course of some incidents, each with what becomes of it. -/
def offers : Desk σ → List (Incident σ) → List (Span × ScheduleOutcome)
  | _, [] => []
  | d, i :: is =>
    (i.offered?.map fun span => (span, (d.schedule span).2)).toList ++ offers (d.undergo sink i) is

/-- The spans that are accepted in the course of some incidents. -/
def accepted (d : Desk σ) (is : List (Incident σ)) : List Span :=
  ((d.offers sink is).filter fun offer => offer.2 = .queued).map Prod.fst

theorem map_fst_offers : ∀ (is : List (Incident σ)) (d : Desk σ),
    (d.offers sink is).map Prod.fst = is.filterMap Incident.offered?
  | [], _ => rfl
  | i :: is, d => by
    rw [offers, List.map_append, map_fst_offers is, List.filterMap_cons]
    cases i.offered? <;> rfl

theorem offers_append : ∀ (is js : List (Incident σ)) (d : Desk σ),
    d.offers sink (is ++ js) = d.offers sink is ++ (d.history sink is).offers sink js
  | [], _, _ => rfl
  | i :: is, js, d => by
    rw [List.cons_append, offers, offers, offers_append is js, List.append_assoc]
    rfl

theorem accepted_append_of_none (d : Desk σ) (is : List (Incident σ)) {js : List (Incident σ)}
    (h : ∀ j ∈ js, j.offered? = none) : d.accepted sink (is ++ js) = d.accepted sink is := by
  have hnone : (d.history sink is).offers sink js = [] := by
    rw [← List.map_eq_nil_iff (f := Prod.fst), map_fst_offers, List.filterMap_eq_nil_iff]
    exact h
  unfold accepted
  rw [offers_append, hnone, List.append_nil]

theorem accepted_append_stop (d : Desk σ) (is : List (Incident σ)) {more : List Occurrence}
    (h : ∀ o ∈ more, o.isOwn = true) :
    d.accepted sink (is ++ (Occurrence.stop :: more).map .occurrence) = d.accepted sink is := by
  refine accepted_append_of_none sink d is fun j hj => ?_
  obtain ⟨o, ho, rfl⟩ := List.mem_map.1 hj
  rcases List.mem_cons.1 ho with rfl | ho
  · rfl
  · have := h o ho
    cases o with
    | move | wait => rfl
    | offer | stop | orphan => cases this

theorem accepted_of_queued {d : Desk σ} {is : List (Incident σ)}
    (h : ∀ offer ∈ d.offers sink is, offer.2 = .queued) :
    d.accepted sink is = is.filterMap Incident.offered? := by
  unfold accepted
  rw [List.filter_eq_self.2 fun offer hoffer => decide_eq_true (h offer hoffer), map_fst_offers]

end Desk

end SpanRelay

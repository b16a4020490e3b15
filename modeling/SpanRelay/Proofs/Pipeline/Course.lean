import SpanRelay.Proofs.Pipeline.Run
import SpanRelay.Proofs.Writer.Offers

/-! # The course of the desk

What happens to a pipeline is a course of its desk, on which the spans that are handed over are offered
(`Pipeline.occurrences`, `happens_eq`). A course `Conveys` these spans also if they are offered later or in
turns with those of other sessions, as long as those of each session stay in their order: the last
versions are the same (`Conveys.lastVersion?_eq`). As long as the desk is live, a span that it refuses is
counted as dropped, so if nothing is dropped, all that is offered is accepted (`accepted_of_dropped`). -/

namespace SpanRelay

/-- The span that is offered. -/
def Occurrence.offered? : Occurrence → Option Span
  | offer span => some span
  | move | wait _ | stop | orphan => none

/-- The spans that are offered, in their order. -/
def offeredIn (os : List Occurrence) : List Span := os.filterMap Occurrence.offered?

/-- Some spans are offered, those of each session in their order, while the writer makes its moves and
time passes. -/
structure Conveys (os : List Occurrence) (spans : List Span) : Prop where
  order : ∀ s, (offeredIn os).filter (fun x => x.sessionId = s) = spans.filter fun x => x.sessionId = s
  goesOn : ∀ o ∈ os, o ≠ .stop ∧ o ≠ .orphan

theorem lastVersion?_filter {b : String} {spans : List Span} {q : Span → Bool}
    (h : ∀ x ∈ spans, x.id = b → q x = true) :
    lastVersion? b (spans.filter q) = lastVersion? b spans := by
  unfold lastVersion?
  rw [← List.filter_reverse, ← List.head?_filter, ← List.head?_filter, List.filter_filter]
  refine congrArg List.head? (List.filter_congr fun x hx => ?_)
  by_cases hb : x.id = b
  · simp [hb, h x (List.mem_reverse.1 hx) hb]
  · simp [hb]

namespace Conveys

variable {os : List Occurrence} {spans : List Span}

theorem mem_iff (h : Conveys os spans) {x : Span} : x ∈ offeredIn os ↔ x ∈ spans := by
  have hown : ∀ xs : List Span, x ∈ xs ↔ x ∈ xs.filter fun y => y.sessionId = x.sessionId := by
    simp
  rw [hown (offeredIn os), h.order, ← hown spans]

/-- **The last versions** are the same if no id is used in two sessions. -/
theorem lastVersion?_eq (h : Conveys os spans)
    (hown : ∀ x ∈ spans, ∀ y ∈ spans, x.id = y.id → x.sessionId = y.sessionId) (b : String) :
    lastVersion? b (offeredIn os) = lastVersion? b spans := by
  by_cases hb : ∃ x ∈ spans, x.id = b
  · obtain ⟨x, hx, rfl⟩ := hb
    let q : Span → Bool := fun y => y.sessionId = x.sessionId
    have hsame : ∀ y ∈ spans, y.id = x.id → q y = true := fun y hy hid =>
      decide_eq_true (hown y hy x hx hid)
    rw [← lastVersion?_filter hsame, ← lastVersion?_filter fun y hy => hsame y (h.mem_iff.1 hy)]
    exact congrArg (lastVersion? x.id) (h.order x.sessionId)
  · have hnone : ∀ x ∈ spans, x.id ≠ b := fun x hx hid => hb ⟨x, hx, hid⟩
    rw [lastVersion?_eq_none.2 hnone, lastVersion?_eq_none.2 fun x hx => hnone x (h.mem_iff.1 hx)]

end Conveys

namespace Desk

variable {σ : Type} {sink : Sink σ} {d : Desk σ}

theorem course_offers (sink : Sink σ) (d : Desk σ) (spans : List Span) :
    d.course sink (spans.map .offer) = d.scheduleAll spans := List.foldl_map

/-! ### Drops -/

theorem dropped_settle (maxRetries : Nat) (backoff : Backoff) (a : Account) (delivery : Delivery)
    (answer : Answer) :
    (delivery.settle maxRetries backoff a answer).account.tally.dropped = a.tally.dropped := by
  have hretry : ∀ (delivery : Delivery) (backoff : Backoff) (a : Account),
      (delivery.retry maxRetries backoff a).account.tally.dropped = a.tally.dropped := by
    intro delivery backoff a
    unfold Delivery.retry
    dsimp only
    split <;> rfl
  unfold Delivery.settle
  split
  · split
    · unfold Delivery.settleFailures
      dsimp only
      split
      · split <;> rfl
      · refine (hretry _ _ _).trans ?_
        split <;> rfl
    · rfl
  · dsimp only
    split
    · exact hretry _ _ _
    · rfl

theorem dropped_move (d : Desk σ) :
    (d.occur sink .move).account.tally.dropped = d.account.tally.dropped := by
  unfold occur
  cases hs : d.step? sink with
  | none => rfl
  | some d' =>
    have h := step_of_step? hs
    cases h with
    | send | begin | take | close | stop => rfl
    | hear =>
      rw [Option.getD_some, hear_eq]
      refine (dropped_settle _ _ _ _ _).trans ?_
      rw [tally_foldl_note]

theorem dropped_schedule (hl : d.Live) (span : Span) :
    ((d.schedule span).2 = .queued ∧
      (d.schedule span).1.account.tally.dropped = d.account.tally.dropped) ∨
    ((d.schedule span).2 ≠ .queued ∧
      (d.schedule span).1.account.tally.dropped = d.account.tally.dropped + 1) := by
  unfold schedule WriteQueue.schedule
  dsimp only
  rw [hl.closed]
  cases d.queue.budget.acquire? (QueueElement.of span).size with
  | none => exact Or.inr ⟨nofun, by rw [WriteQueue.tally_accountDrop]⟩
  | some budget =>
    dsimp only
    rw [if_neg Bool.false_ne_true]
    split
    · exact Or.inl ⟨rfl, rfl⟩
    · exact Or.inr ⟨nofun, by rw [WriteQueue.tally_accountDrop]⟩

theorem live_occur (hl : d.Live) {o : Occurrence} (ho : o ≠ .stop) (ho' : o ≠ .orphan) :
    (d.occur sink o).Live := by
  cases o with
  | offer span =>
    obtain ⟨budget, account, ⟨hs, -⟩ | ⟨hs, -⟩⟩ := schedule_live hl span
    all_goals
      rw [occur, hs]
      exact ⟨hl.closed, hl.orphaned, hl.closing, hl.stopping, hl.phase⟩
  | move =>
    unfold occur
    cases hs : d.step? sink with
    | none => exact hl
    | some d' => exact live_step (step_of_step? hs) hl
  | wait => exact ⟨hl.closed, hl.orphaned, hl.closing, hl.stopping, hl.phase⟩
  | stop => exact absurd rfl ho
  | orphan => exact absurd rfl ho'

/-- **Every refusal is counted** as long as the desk is live. -/
theorem dropped_course (os : List Occurrence) (hos : ∀ o ∈ os, o ≠ .stop ∧ o ≠ .orphan)
    (hl : d.Live) : (d.course sink os).account.tally.dropped = d.account.tally.dropped +
      (d.offers sink (os.map .occurrence)).countP fun offer => offer.2 ≠ .queued := by
  induction os generalizing d with
  | nil => rfl
  | cons o os ih =>
    obtain ⟨ho, ho'⟩ := hos o List.mem_cons_self
    have hrest := ih (d := d.occur sink o) (fun o' h => hos o' (List.mem_cons_of_mem _ h))
      (live_occur hl ho ho')
    have hfirst : (d.occur sink o).account.tally.dropped = d.account.tally.dropped +
        ((Incident.occurrence o : Incident σ).offered?.map
          fun span => (span, (d.schedule span).2)).toList.countP fun offer => offer.2 ≠ .queued := by
      cases o with
      | offer span =>
        rcases dropped_schedule hl span with ⟨hq, hd⟩ | ⟨hq, hd⟩
        · simp [Incident.offered?, occur, hq, hd]
        · simp [Incident.offered?, occur, hq, hd]
      | move => exact dropped_move d
      | wait | stop | orphan => rfl
    rw [List.map_cons, offers, List.countP_append, ← Nat.add_assoc, ← hfirst]
    exact hrest

/-- **If nothing is dropped**, all that is offered is accepted. -/
theorem accepted_of_dropped {os : List Occurrence} (hos : ∀ o ∈ os, o ≠ .stop ∧ o ≠ .orphan)
    (hl : d.Live) (hdrop : (d.course sink os).account.tally.dropped = d.account.tally.dropped) :
    d.accepted sink (os.map .occurrence) = offeredIn os := by
  rw [dropped_course os hos hl] at hdrop
  have hzero : (d.offers sink (os.map .occurrence)).countP (fun offer => offer.2 ≠ .queued) = 0 := by
    omega
  have hoffered : (os.map Incident.occurrence).filterMap (Incident.offered? (σ := σ)) =
      offeredIn os := by
    rw [List.filterMap_map, offeredIn]
    refine congrArg (List.filterMap · os) (funext fun o => ?_)
    cases o <;> rfl
  rw [← hoffered]
  refine accepted_of_queued sink fun offer hoffer => ?_
  have hqueued := List.countP_eq_zero.1 hzero offer hoffer
  simpa using hqueued

end Desk

namespace Pipeline

variable {σ : Type} {sink : Sink σ}

/-- What occurs at the desk of a pipeline in the course of some happenings. -/
def occurrences (policy : Policy) (sample : UInt64 → Bool) : Registry → List Happening → List Occurrence
  | _, [] => []
  | r, .call c :: hs =>
    let result := r.call policy sample c
    result.2.map .offer ++ occurrences policy sample result.1 hs
  | r, .move :: hs => .move :: occurrences policy sample r hs
  | r, .wait nanos :: hs => .wait nanos :: occurrences policy sample r hs

/-- The pipeline after some calls, and after what has occurred at its desk. -/
def after (sink : Sink σ) (p : Pipeline σ) (cs : List Call) (os : List Occurrence) : Pipeline σ :=
  { p with registry := p.registry.calls p.policy p.sample cs, desk := p.desk.course sink os }

/-- What is left of a pipeline that is shut down. -/
def shutdown (sink : Sink σ) (p : Pipeline σ) : Pipeline σ :=
  { p with desk := p.desk.shutdown sink }

/-- **A run of a pipeline**: the registry goes through the calls, and the desk through what occurs. -/
theorem happens_eq : ∀ (hs : List Happening) (p : Pipeline σ),
    p.happens sink hs = p.after sink (hs.filterMap Happening.call?)
      (occurrences p.policy p.sample p.registry hs)
  | [], _ => rfl
  | .call c :: hs, p => by
    have hstep : p.happens sink (.call c :: hs) = (p.happen sink (.call c)).happens sink hs := rfl
    rw [hstep, happens_eq hs, happen_call, after, after, occurrences, Desk.course_append,
      Desk.course_offers]
    rfl
  | .move :: hs, p => happens_eq hs (p.happen sink .move)
  | .wait nanos :: hs, p => happens_eq hs (p.happen sink (.wait nanos))

variable {policy : Policy} {sample : UInt64 → Bool}

theorem ne_stop_of_mem_occurrences : ∀ (hs : List Happening) (r : Registry),
    ∀ o ∈ occurrences policy sample r hs, o ≠ .stop ∧ o ≠ .orphan
  | [], _, _, ho => absurd ho List.not_mem_nil
  | .call c :: hs, r, o, ho => by
    rcases List.mem_append.1 ho with ho | ho
    · obtain ⟨span, -, rfl⟩ := List.mem_map.1 ho
      exact ⟨nofun, nofun⟩
    · exact ne_stop_of_mem_occurrences hs _ o ho
  | .move :: hs, r, o, ho | .wait _ :: hs, r, o, ho => by
    rcases List.mem_cons.1 ho with rfl | ho
    · exact ⟨nofun, nofun⟩
    · exact ne_stop_of_mem_occurrences hs r o ho

theorem offeredIn_occurrences : ∀ (hs : List Happening) (r : Registry),
    offeredIn (occurrences policy sample r hs) =
      r.handed policy sample (hs.filterMap Happening.call?)
  | [], _ => rfl
  | .call c :: hs, r => by
    have hoffers : ∀ spans : List Span, offeredIn (spans.map .offer) = spans := by
      intro spans
      rw [offeredIn, List.filterMap_map]
      exact List.filterMap_some
    rw [occurrences, offeredIn, List.filterMap_append, ← offeredIn, ← offeredIn, hoffers,
      offeredIn_occurrences hs]
    rfl
  | .move :: hs, r | .wait _ :: hs, r => offeredIn_occurrences hs r

theorem conveys_occurrences (hs : List Happening) (r : Registry) :
    Conveys (occurrences policy sample r hs) (r.handed policy sample (hs.filterMap Happening.call?)) where
  order _ := congrArg (List.filter _) (offeredIn_occurrences hs r)
  goesOn := ne_stop_of_mem_occurrences hs r

end Pipeline

end SpanRelay

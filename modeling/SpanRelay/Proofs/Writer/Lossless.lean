import SpanRelay.Proofs.Writer.Faltering

/-! # Stores that lose nothing

As long as every answer confirms all documents of its request, the writer gives none up
(`lost_history`). A store that falters either fails a request as a whole or confirms it
(`confirms_of_isOk`), so if it does not fail any, nothing is lost. -/

namespace SpanRelay

/-- The answer acknowledges every document. -/
def Answer.Confirms (answer : Answer) : Prop :=
  ∃ response, answer = .ok response ∧ response.hasFailures = false

instance : DecidablePred Answer.Confirms
  | .ok response => decidable_of_iff (response.hasFailures = false)
      ⟨fun h => ⟨response, rfl, h⟩, by rintro ⟨_, ⟨⟩, h⟩; exact h⟩
  | .error _ => .isFalse (by rintro ⟨_, h, -⟩; cases h)

namespace Desk

variable {σ β : Type} {sink : Sink σ} {d : Desk σ}

theorem lost_schedule (d : Desk σ) (span : Span) :
    (d.schedule span).1.account.tally.lost = d.account.tally.lost := by
  unfold schedule WriteQueue.schedule
  dsimp only
  split
  · rw [WriteQueue.tally_accountDrop]
  · split
    · rfl
    · split
      · rfl
      · rw [WriteQueue.tally_accountDrop]

theorem lost_undergo (i : Incident σ) (h : ∀ a, d.answer? sink i = some a → a.Confirms) :
    (d.undergo sink i).account.tally.lost = d.account.tally.lost := by
  cases i with
  | change => rfl
  | occurrence o =>
    cases o with
    | offer span => exact lost_schedule d span
    | wait | stop | orphan => rfl
    | move =>
      by_cases hwait : ∃ wake delivery, d.writer.phase = .waiting wake delivery ∧ wake ≤ d.now
      · obtain ⟨wake, delivery, hp, hw⟩ := hwait
        have hok := h _ (answer?_of_waiting hp hw)
        rw [undergo, occur_of_waiting hp hw, hear_eq]
        dsimp only
        rw [show d.settlement sink delivery = _ from settle_of_accepted _ _ _ _ hok]
        dsimp only [Account.addFlushed]
        rw [tally_foldl_note]
      · unfold undergo occur
        cases hs : d.step? sink with
        | none => rfl
        | some d' =>
          have hstep := step_of_step? hs
          cases hstep with
          | hear hp hw => exact absurd ⟨_, _, hp, hw⟩ hwait
          | send | begin | take | close | stop => rfl

/-- **If every request is confirmed**, nothing is lost. -/
theorem lost_history (is : List (Incident σ)) (h : ∀ a ∈ d.answers sink is, a.Confirms) :
    (d.history sink is).account.tally.lost = d.account.tally.lost := by
  induction is generalizing d with
  | nil => rfl
  | cons i is ih =>
    have hfirst : ∀ a, d.answer? sink i = some a → a.Confirms := fun a ha =>
      h a (List.mem_append_left _ (Option.mem_toList.2 ha))
    exact (ih (d := d.undergo sink i) fun a ha => h a (List.mem_append_right _ ha)).trans
      (lost_undergo i hfirst)

/-! ### Stores that falter -/

variable {v : StoreView σ β} {good : Document → Prop} {before : String → Option β}
  {spans : List Span} {past : List Answer}

theorem confirms_of_answer? (hs : sink.Faltering d.writer.settings.index v good)
    (he : d.Endures v good before spans past) {i : Incident σ} {a : Answer}
    (ha : d.answer? sink i = some a) (hok : a.isOk = true) : a.Confirms := by
  cases i with
  | change => cases ha
  | occurrence o =>
    cases o with
    | offer | wait | stop | orphan => cases ha
    | move =>
      by_cases hwait : ∃ wake delivery, d.writer.phase = .waiting wake delivery ∧ wake ≤ d.now
      · obtain ⟨wake, delivery, hp, hw⟩ := hwait
        rw [answer?_of_waiting hp hw] at ha
        obtain rfl := Option.some.inj ha
        have hgood : ∀ doc ∈ delivery.documents, good doc := fun doc hdoc =>
          he.carries.underway doc (mem_underway_of_documents (by rw [hp]; exact hdoc))
        obtain ⟨-, ⟨e, herr, -⟩ | ⟨hconfirms, -⟩⟩ := hs.answer delivery.documents d.store
          he.awaits.calm (nodup_of_waiting he.awaits.nodup hp) hgood
        · rw [herr] at hok
          cases hok
        · exact hconfirms
      · rw [answer?_of_not_waiting hwait] at ha
        cases ha

/-- **A store that falters** confirms the requests that it does not fail. -/
theorem confirms_of_isOk (is : List (Incident σ))
    (hs : sink.Faltering d.writer.settings.index v good) (hl : 0 < d.writer.settings.drainLength)
    (hi : ∀ i ∈ is, i.Harmless v) (hgood : ∀ x ∈ d.accepted sink is, good (.ofSpan x))
    (hrow : FailsAtMost d.writer.settings.maxRetries (past ++ d.answers sink is))
    (he : d.Endures v good before spans past) :
    ∀ a ∈ d.answers sink is, a.isOk = true → a.Confirms := by
  induction is generalizing d spans past with
  | nil => exact fun _ ha => absurd ha List.not_mem_nil
  | cons i is ih =>
    have hset : (d.undergo sink i).writer.settings = d.writer.settings := settings_undergo i
    rw [accepted_cons] at hgood
    rw [answers, ← List.append_assoc] at hrow
    have hfirst : FailsAtMost d.writer.settings.maxRetries (past ++ (d.answer? sink i).toList) :=
      fun run hrun => hrow run (hrun.trans (List.prefix_append _ _).isInfix)
    have hnext := endures_undergo hs hl (hi i List.mem_cons_self)
      (fun x hx => hgood x (List.mem_append_left _ hx)) hfirst he
    intro a ha hok
    rw [answers] at ha
    rcases List.mem_append.1 ha with ha | ha
    · exact confirms_of_answer? hs he (Option.mem_toList.1 ha) hok
    · exact ih (by rw [hset]; exact hs) (by rw [hset]; exact hl)
        (fun i' hi' => hi i' (List.mem_cons_of_mem _ hi'))
        (fun x hx => hgood x (List.mem_append_right _ hx)) (by rw [hset]; exact hrow) hnext a ha hok

end Desk

end SpanRelay

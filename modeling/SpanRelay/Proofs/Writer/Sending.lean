import SpanRelay.Proofs.Writer.Flush
import SpanRelay.Proofs.Writer.Lossless

/-! # Requests and answers of a run

`Desk.requests` are the requests that a desk sends along a run, in the same way as `Desk.heard` are
the answers that it hears. `Runs` relates the ends of a run to both, so that a fact about runs is
proved by induction on the moves and passages of time.

* `requests_eq_heard`: a run from a ready desk to a ready desk hears the answer to each request, in
  the order in which they were sent.
* `requests_of_confirmed`: if each answer confirms its request, the requests sent are those that were
  ahead. -/

namespace SpanRelay.Desk

variable {σ : Type} {sink : Sink σ} {d d' e : Desk σ} {rs : List (List Document)} {hs : List Hearing}

/-- The request that the next move sends. -/
def request? (d : Desk σ) : Option (List Document) :=
  match d.writer.phase with
  | .resting wake delivery => if wake ≤ d.now then some delivery.documents else none
  | .ready | .waiting _ _ | .stopped => none

/-- The requests that are sent in at most `fuel` moves. -/
def requestsWithin (sink : Sink σ) (limit : Option Nat) : Nat → Desk σ → List (List Document)
  | 0, _ => []
  | fuel + 1, d =>
    match d.step? sink with
    | some d' => d.request?.toList ++ requestsWithin sink limit fuel d'
    | none =>
      match d.wake? with
      | none => []
      | some wake =>
        if limit.all (wake ≤ ·) then requestsWithin sink limit fuel { d with now := wake } else []

/-- The requests that are sent along a run. -/
def requests (sink : Sink σ) (limit : Option Nat) (d : Desk σ) : List (List Document) :=
  d.requestsWithin sink limit d.moveBound

/-- From `d` to `e` some requests are sent and some answers heard. -/
inductive Runs (sink : Sink σ) : Desk σ → List (List Document) → List Hearing → Desk σ → Prop
  | done (d : Desk σ) : Runs sink d [] [] d
  | move {d d' e : Desk σ} {rs : List (List Document)} {hs : List Hearing}
      (h : d.step? sink = some d') (hrest : Runs sink d' rs hs e) :
      Runs sink d (d.request?.toList ++ rs) ((d.hearing? sink).toList ++ hs) e
  | wait {d e : Desk σ} {rs : List (List Document)} {hs : List Hearing} (now : Nat)
      (hrest : Runs sink { d with now } rs hs e) : Runs sink d rs hs e

theorem runs_moves (sink : Sink σ) (limit : Option Nat) : ∀ (fuel : Nat) (d : Desk σ),
    Runs sink d (d.requestsWithin sink limit fuel) (d.hearings sink limit fuel)
      (d.moves sink limit fuel)
  | 0, d => .done d
  | fuel + 1, d => by
    unfold requestsWithin hearings moves
    cases h : d.step? sink with
    | some d' => exact .move h (runs_moves sink limit fuel d')
    | none =>
      dsimp only
      cases d.wake? with
      | none => exact .done d
      | some wake =>
        dsimp only
        split
        · exact .wait wake (runs_moves sink limit fuel { d with now := wake })
        · exact .done d

theorem runs_run (sink : Sink σ) (limit : Option Nat) (d : Desk σ) :
    Runs sink d (d.requests sink limit) (d.heard sink limit) (d.run sink limit) :=
  runs_moves sink limit d.moveBound d

/-! ### Requests are answered -/

/-- The request whose answer is still to come. -/
def asked (d : Desk σ) : List (List Document) :=
  match d.writer.phase with
  | .waiting _ delivery => [delivery.documents]
  | .ready | .resting _ _ | .stopped => []

theorem asked_of_ready (hp : d.writer.phase = .ready) : d.asked = [] := by
  unfold asked
  rw [hp]

theorem asked_hear (d : Desk σ) (delivery : Delivery) : (d.hear sink delivery).asked = [] := by
  rw [hear_eq]
  unfold asked
  dsimp only [Settlement.phase]
  cases (d.settlement sink delivery).next <;> rfl

theorem asked_step (h : Step sink d d') :
    d.asked ++ d.request?.toList =
      (d.hearing? sink).toList.map (fun h => h.delivery.documents) ++ d'.asked := by
  cases h with
  | send hp hw =>
    rw [send_eq]
    simp [asked, request?, hearing?, hp, hw]
  | @hear wake delivery hp hw =>
    rw [asked_hear]
    simp [asked, request?, hearing?, hp, hw, answered, Delivery.hearing]
  | begin hp => simp [asked, request?, hearing?, hp, rest]
  | take n hp => simp [asked, request?, hearing?, hp, process, enqueueSpans]
  | close hp => simp [asked, request?, hearing?, hp, close]
  | stop hp => simp [asked, request?, hearing?, hp]

theorem Runs.asked (h : Runs sink d rs hs e) :
    d.asked ++ rs = hs.map (fun h => h.delivery.documents) ++ e.asked := by
  induction h with
  | done d => simp
  | move hstep _ ih =>
    rw [List.map_append, List.append_assoc, ← ih, ← List.append_assoc, ← List.append_assoc,
      asked_step (step_of_step? hstep)]
  | wait now _ ih => exact ih

/-- **Each request is answered** before the next one is sent. -/
theorem requests_eq_heard (limit : Option Nat) (hp : d.writer.phase = .ready)
    (he : (d.run sink limit).writer.phase = .ready) :
    d.requests sink limit = (d.heard sink limit).map fun h => h.delivery.documents := by
  have hasked := (runs_run sink limit d).asked
  rw [asked_of_ready hp, asked_of_ready he] at hasked
  simpa using hasked

/-! ### Confirmed requests -/

/-- The requests that are to be confirmed, the present one first. -/
def awaited (d : Desk σ) : List (List Document) :=
  match d.writer.phase with
  | .resting _ delivery | .waiting _ delivery => delivery.documents :: d.writer.ahead
  | .ready | .stopped => d.writer.ahead

theorem awaited_of_ready (hp : d.writer.phase = .ready) : d.awaited = d.writer.ahead := by
  unfold awaited
  rw [hp]

theorem awaited_step (ha : d.Alone) (h : Step sink d d')
    (hc : ∀ h ∈ d.hearing? sink, h.answer.Confirms) :
    (d.hearing? sink).toList.map (fun h => h.delivery.documents) ++ d'.awaited = d.awaited := by
  rcases ha.step_cases h with ⟨_, delivery, hp, rfl⟩ | ⟨_, delivery, hp, hw, rfl⟩ | ⟨_, _, hp, hb, rfl⟩
  · rw [send_eq]
    simp [awaited, hearing?, hp]
  · have hheard : d.hearing? sink = some (d.answered sink delivery) := by
      rw [hearing?, hp]
      exact if_pos hw
    have hconfirms : (d.answered sink delivery).answer.Confirms := hc _ (by rw [hheard]; rfl)
    have hready : Settlement.phase (d.settlement sink delivery) d.now = .ready := by
      rw [show d.settlement sink delivery = _ from settle_of_accepted _ _ _ _ hconfirms]
      rfl
    rw [hheard, hear_eq]
    dsimp only
    rw [hready]
    simp [awaited, hp, answered, Delivery.hearing]
  · simp [awaited, hearing?, hp, hb, rest, Delivery.of]

theorem Runs.awaited (h : Runs sink d rs hs e) (ha : d.Alone) (hc : ∀ h ∈ hs, h.answer.Confirms) :
    hs.map (fun h => h.delivery.documents) ++ e.awaited = d.awaited := by
  induction h with
  | done d => rfl
  | move hstep _ ih =>
    have hstep' := step_of_step? hstep
    have hrest := ih (ha.step hstep') fun h hh => hc h (List.mem_append_right _ hh)
    rw [List.map_append, List.append_assoc, hrest]
    exact awaited_step ha hstep' fun h hh => hc h (List.mem_append_left _ (Option.mem_toList.2 hh))
  | wait now _ ih => exact ih (ha.wait now) hc

/-- **What is confirmed is sent once**: the requests are those ahead, in their order. -/
theorem requests_of_confirmed (ha : d.Alone) (hp : d.writer.phase = .ready)
    (hb : ∀ b ∈ d.writer.ahead, b ≠ []) (hc : ∀ h ∈ d.heard sink none, h.answer.Confirms) :
    d.requests sink none = d.writer.ahead := by
  obtain ⟨hready, hahead⟩ : (d.run sink none).writer.phase = .ready ∧
      (d.run sink none).writer.ahead = [] := ha.ready_run hb
  have hawaited := (runs_run sink none d).awaited ha hc
  rw [awaited_of_ready hp, awaited_of_ready hready] at hawaited
  rw [requests_eq_heard none hp hready, ← hawaited, hahead, List.append_nil]

end SpanRelay.Desk

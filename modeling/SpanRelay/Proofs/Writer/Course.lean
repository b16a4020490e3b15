import SpanRelay.Config.Basic
import SpanRelay.Proofs.Writer.Settlement
import SpanRelay.Writer.Machine

/-! # Courses of a desk

A course is any order of offers, moves of the writer, passing of time and signals to stop.
`Desk.Step` lists what one move of the writer is, and `step_of_step?` says that `step?` makes no
other. The executed `run` is a course (`exists_course_moves`), so what holds along every course
holds of it. -/

namespace SpanRelay

/-- What may happen at a desk. -/
inductive Occurrence
  /-- A span is offered to the queue. -/
  | offer (span : Span)
  /-- The writer makes its next move, if it has one at the present time. -/
  | move
  /-- Some nanoseconds pass. -/
  | wait (nanos : Nat)
  /-- The writer is told to stop. -/
  | stop
  /-- Nobody is left who could offer a span. -/
  | orphan

/-- The documents of the present delivery. -/
def Phase.documents : Phase → List Document
  | .resting _ delivery | .waiting _ delivery => delivery.documents
  | .ready | .stopped => []

/-- Whether an occurrence is one of the writer itself or the passing of time. -/
def Occurrence.isOwn : Occurrence → Bool
  | .move | .wait _ => true
  | .offer _ | .stop | .orphan => false

namespace Desk

variable {σ : Type}

/-- The documents on their way from the queue to the store. -/
def underway (d : Desk σ) : List Document := d.writer.phase.documents ++ d.writer.ahead.flatten

/-- The desk after an occurrence. -/
def occur (sink : Sink σ) (d : Desk σ) : Occurrence → Desk σ
  | .offer span => (d.schedule span).1
  | .move => (d.step? sink).getD d
  | .wait nanos => { d with now := d.now + nanos }
  | .stop => { d with writer := { d.writer with stopping := true } }
  | .orphan => { d with queue := d.queue.orphan }

/-- The desk after some occurrences. -/
def course (sink : Sink σ) (d : Desk σ) (os : List Occurrence) : Desk σ := os.foldl (occur sink) d

theorem course_append (sink : Sink σ) (d : Desk σ) (os ps : List Occurrence) :
    d.course sink (os ++ ps) = (d.course sink os).course sink ps := List.foldl_append

theorem elements_of_take_eq_nil {d : Desk σ} {n : Nat} (hn : 0 < n)
    (h : d.queue.elements.take n = []) : d.queue.elements = [] := by
  rcases List.take_eq_nil_iff.1 h with h0 | h0
  · omega
  · exact h0

/-! ### Requests and answers -/

theorem send_eq (sink : Sink σ) (d : Desk σ) (delivery : Delivery) :
    d.send sink delivery =
      let received := sink.receive d.now d.writer.settings.index delivery.documents d.store
      { d with
        store := received.1
        writer := { d.writer with phase := .waiting (d.now + received.2) delivery } } := rfl

/-- What the answer to a delivery settles. -/
def settlement (sink : Sink σ) (d : Desk σ) (delivery : Delivery) : Settlement :=
  let answered := sink.answer d.writer.settings.index delivery.documents d.store
  delivery.settle d.writer.settings.maxRetries d.writer.backoff
    (answered.2.1.foldl Account.note d.account) answered.2.2

/-- What the writer does after a settlement. -/
def Settlement.phase (s : Settlement) (now : Nat) : Phase :=
  match s.next with
  | some delivery => .resting (now + s.backoff.current) delivery
  | none => .ready

theorem hear_eq (sink : Sink σ) (d : Desk σ) (delivery : Delivery) :
    d.hear sink delivery =
      let s := d.settlement sink delivery
      { d with
        store := (sink.answer d.writer.settings.index delivery.documents d.store).1
        account := s.account
        writer := { d.writer with backoff := s.backoff, phase := Settlement.phase s d.now } } := by
  have h : d.hear sink delivery =
      let s := d.settlement sink delivery
      let heard : Desk σ := { d with
        store := (sink.answer d.writer.settings.index delivery.documents d.store).1
        account := s.account
        writer := { d.writer with backoff := s.backoff, phase := .ready } }
      match s.next with
      | some delivery => heard.rest delivery
      | none => heard := rfl
  rw [h]
  dsimp only [Settlement.phase]
  split <;> rfl

theorem phase_hear_ne_stopped {sink : Sink σ} {d : Desk σ} (delivery : Delivery) :
    (d.hear sink delivery).writer.phase ≠ .stopped := by
  rw [hear_eq]
  dsimp only [Settlement.phase]
  split <;> exact nofun

/-! ### What is on its way -/

section

variable {sink : Sink σ} {d : Desk σ}

theorem mem_underway_of_documents {doc : Document} (h : doc ∈ d.writer.phase.documents) :
    doc ∈ d.underway := List.mem_append_left _ h

theorem underway_of_ready (hp : d.writer.phase = .ready) (ha : d.writer.ahead = []) :
    d.underway = [] := by
  unfold underway
  rw [hp, ha]
  rfl

theorem underway_of_waiting {wake : Nat} {delivery : Delivery}
    (hp : d.writer.phase = .waiting wake delivery) :
    d.underway = delivery.documents ++ d.writer.ahead.flatten := by
  unfold underway
  rw [hp]
  rfl

theorem underway_send {wake : Nat} {delivery : Delivery}
    (hp : d.writer.phase = .resting wake delivery) :
    (d.send sink delivery).underway = d.underway := by
  unfold underway
  rw [send_eq, hp]
  rfl

theorem documents_phase (s : Settlement) (now : Nat) :
    (Settlement.phase s now).documents = s.left := by
  unfold Settlement.phase SpanRelay.Settlement.left
  cases s.next <;> rfl

theorem underway_hear (delivery : Delivery) : (d.hear sink delivery).underway =
    (d.settlement sink delivery).left ++ d.writer.ahead.flatten := by
  rw [← documents_phase _ d.now, underway, hear_eq]

theorem underway_begin {batch : List Document} {ahead : List (List Document)}
    (hp : d.writer.phase = .ready) (ha : d.writer.ahead = batch :: ahead) :
    underway ({ d with writer := { d.writer with ahead } }.rest (.of batch)) = d.underway := by
  unfold underway
  rw [hp, ha]
  rfl

theorem underway_take (n : Nat) (hp : d.writer.phase = .ready) :
    (d.process (d.queue.drain n).1 (d.queue.drain n).2).underway =
      (batches d.writer.settings.limits (latest (d.queue.elements.take n))).flatten := by
  simp only [underway, process, enqueueSpans, hp, WriteQueue.drain]
  rfl

theorem underway_stop (ha : d.writer.ahead = []) :
    underway { d with writer := { d.writer with phase := .stopped } } = [] := by
  unfold underway
  rw [ha]
  rfl

end

/-! ### Steps -/

/-- The moves of the writer. -/
inductive Step (sink : Sink σ) (d : Desk σ) : Desk σ → Prop
  /-- A request is sent after a rest. -/
  | send {wake : Nat} {delivery : Delivery} (hp : d.writer.phase = .resting wake delivery)
      (hw : wake ≤ d.now) : Step sink d (d.send sink delivery)
  /-- The answer to a request comes. -/
  | hear {wake : Nat} {delivery : Delivery} (hp : d.writer.phase = .waiting wake delivery)
      (hw : wake ≤ d.now) : Step sink d (d.hear sink delivery)
  /-- The next request ahead is taken up. -/
  | begin {batch : List Document} {ahead : List (List Document)} (hp : d.writer.phase = .ready)
      (ha : d.writer.ahead = batch :: ahead) :
      Step sink d ({ d with writer := { d.writer with ahead } }.rest (.of batch))
  /-- Some elements are taken out of the queue. -/
  | take (n : Nat) (hp : d.writer.phase = .ready) (ha : d.writer.ahead = [])
      (hn : d.queue.elements.take n ≠ []) :
      Step sink d (d.process (d.queue.drain n).1 (d.queue.drain n).2)
  /-- The queue is closed. -/
  | close (hp : d.writer.phase = .ready) (ha : d.writer.ahead = [])
      (hc : d.writer.closing = false)
      (hs : d.writer.stopping = true ∨ d.queue.isExhausted = true) : Step sink d d.close
  /-- The writer stops. -/
  | stop (hp : d.writer.phase = .ready) (ha : d.writer.ahead = []) (hc : d.writer.closing = true)
      (hn : d.queue.elements.take d.writer.settings.drainLength = []) :
      Step sink d { d with writer := { d.writer with phase := .stopped } }

theorem step_of_next? {sink : Sink σ} {d d' : Desk σ} (hp : d.writer.phase = .ready)
    (ha : d.writer.ahead = []) (h : d.next? = some d') : Step sink d d' := by
  unfold next? at h
  dsimp only at h
  split at h
  · rename_i hc
    split at h
    · rename_i queue hdrain
      cases h
      exact .stop hp ha hc (congrArg Prod.fst hdrain)
    · rename_i elements queue hne hdrain
      cases h
      have htake : d.queue.elements.take d.writer.settings.drainLength = elements :=
        congrArg Prod.fst hdrain
      have : Step sink d _ := .take d.writer.settings.drainLength hp ha (by rw [htake]; exact hne)
      rwa [hdrain] at this
  · rename_i hc
    rw [Bool.not_eq_true] at hc
    split at h
    · rename_i hs
      cases h
      exact .close hp ha hc (Bool.or_eq_true_iff.1 hs)
    · split at h
      · cases h
      · rename_i elements queue hne hdrain
        cases h
        have htake : d.queue.elements.take (max 1 d.writer.settings.drainLength) = elements :=
          congrArg Prod.fst hdrain
        have : Step sink d _ :=
          .take (max 1 d.writer.settings.drainLength) hp ha (by rw [htake]; exact hne)
        rwa [hdrain] at this

/-- **The moves of a writer** are steps. -/
theorem step_of_step? {sink : Sink σ} {d d' : Desk σ} (h : d.step? sink = some d') :
    Step sink d d' := by
  unfold step? at h
  split at h
  · cases h
  · rename_i wake delivery hp
    split at h
    · rename_i hw
      cases h
      exact .send hp hw
    · cases h
  · rename_i wake delivery hp
    split at h
    · rename_i hw
      cases h
      exact .hear hp hw
    · cases h
  · rename_i hp
    split at h
    · rename_i batch ahead ha
      cases h
      exact .begin hp ha
    · rename_i ha
      exact step_of_next? hp ha h

theorem settings_step {sink : Sink σ} {d d' : Desk σ} (h : Step sink d d') :
    d'.writer.settings = d.writer.settings := by
  cases h with
  | send | begin | take | close | stop => rfl
  | hear => rw [hear_eq]

theorem settings_course {sink : Sink σ} : ∀ (os : List Occurrence) (d : Desk σ),
    (d.course sink os).writer.settings = d.writer.settings
  | [], _ => rfl
  | o :: os, d => by
    have ho : (d.occur sink o).writer.settings = d.writer.settings := by
      cases o with
      | move =>
        unfold occur
        cases hs : d.step? sink with
        | none => rfl
        | some d' => exact settings_step (step_of_step? hs)
      | offer | wait | stop | orphan => rfl
    exact (settings_course os (d.occur sink o)).trans ho

end Desk

theorem drainLength_pos_of_validate {config : Config} (h : config.validate = .ok config) :
    0 < config.drainLength := by
  rw [Nat.pos_iff_ne_zero]
  intro h0
  unfold Config.validate at h
  have hf : ∃ fault, config.fault? = some fault := by
    unfold Config.fault?
    simp only [h0, or_true, if_true]
    split
    · exact ⟨_, rfl⟩
    · split <;> exact ⟨_, rfl⟩
  obtain ⟨fault, hf⟩ := hf
  rw [hf] at h
  cases h

namespace Desk

variable {σ : Type}

/-! ### The executed run -/

theorem lt_wake_of_step?_eq_none {sink : Sink σ} {d : Desk σ} {wake : Nat}
    (h : d.step? sink = none) (hw : d.wake? = some wake) : d.now < wake := by
  unfold wake? at hw
  unfold step? at h
  split at hw
  · rename_i hp
    cases hw
    rw [hp] at h
    dsimp only at h
    split at h
    · cases h
    · omega
  · rename_i hp
    cases hw
    rw [hp] at h
    dsimp only at h
    split at h
    · cases h
    · omega
  · cases hw
  · cases hw

theorem exists_course_moves (sink : Sink σ) (limit : Option Nat) : ∀ (fuel : Nat) (d : Desk σ),
    ∃ os : List Occurrence, (∀ o ∈ os, o.isOwn) ∧ d.moves sink limit fuel = d.course sink os
  | 0, d => ⟨[], by simp, rfl⟩
  | fuel + 1, d => by
    unfold moves
    cases hs : d.step? sink with
    | some d' =>
      obtain ⟨os, hos, h⟩ := exists_course_moves sink limit fuel d'
      refine ⟨.move :: os, by simpa [Occurrence.isOwn] using hos, ?_⟩
      have ho : d.occur sink .move = d' := by rw [occur, hs]; rfl
      rw [course, List.foldl_cons, ho]
      exact h
    | none =>
      dsimp only
      cases hw : d.wake? with
      | none => exact ⟨[], by simp, rfl⟩
      | some wake =>
        dsimp only
        split
        · obtain ⟨os, hos, h⟩ := exists_course_moves sink limit fuel { d with now := wake }
          refine ⟨.wait (wake - d.now) :: os, by simpa [Occurrence.isOwn] using hos, ?_⟩
          have hlt := lt_wake_of_step?_eq_none hs hw
          have ho : d.occur sink (.wait (wake - d.now)) = { d with now := wake } := by
            simp only [occur]
            congr
            omega
          rw [course, List.foldl_cons, ho]
          exact h
        · exact ⟨[], by simp, rfl⟩

/-- **Shutting down** is a course that begins with the signal to stop. -/
theorem exists_course_shutdown (sink : Sink σ) (d : Desk σ) :
    ∃ os : List Occurrence, (∀ o ∈ os, o.isOwn) ∧ d.shutdown sink = d.course sink (.stop :: os) := by
  obtain ⟨os, hos, h⟩ := exists_course_moves sink none _ (d.occur sink .stop)
  exact ⟨os, hos, h⟩

end Desk

end SpanRelay

import SpanRelay.Proofs.Writer.Delay
import SpanRelay.Proofs.Writer.Offers
import SpanRelay.Proofs.Writer.Sending
import SpanRelay.Store.Scripted

/-! # Rests before the requests

Before each request the writer rests as long as its delay asks. A desk has any course of `Doing`s:
incidents, with the moves of the writer among them, and flushes. `Desk.rests` are the rests that it
begins in the course of them, `Desk.requestTimes` the times at which it sends requests, `Desk.replies`
the answers that it hears, and `Desk.delays` the delay at first and after each answer.

* `passage_carry`: what one doing lets the writer begin, send and hear, and what becomes of its delay.
* `delays_eq_scanl`: the delays follow from the upshots of the answers, so the `DelayLaw` holds of them.
* `rests_isPrefix`: the rests are as long as the delays, one for each request.
* `requestTimes_after_rests`: no request is sent before its rest is over.

`delay_law` puts these together for a writer that starts without a delay. -/

namespace SpanRelay

/-- What may happen to a writer. -/
inductive Doing (σ : Type)
  | incident (i : Incident σ)
  /-- Requests for some spans join those that are ahead. -/
  | flush (spans : List Span)

/-- Whether the writer is to make its next move. -/
def Doing.isMove {σ : Type} : Doing σ → Bool
  | .incident (.occurrence .move) => true
  | .incident _ | .flush _ => false

/-- A time of rest. -/
structure Rest where
  start : Nat
  wake : Nat
deriving DecidableEq, Repr

def Rest.length (r : Rest) : Nat := r.wake - r.start

/-- Whether a request is to be sent or answered. -/
def Phase.isBusy : Phase → Bool
  | .resting _ _ | .waiting _ _ => true
  | .ready | .stopped => false

/-- The end of the present rest. -/
def Phase.wake? : Phase → Option Nat
  | .resting wake _ => some wake
  | .ready | .waiting _ _ | .stopped => none

namespace Desk

variable {σ α : Type}

section

variable (sink : Sink σ)

/-- The desk after something was done. -/
def carry (d : Desk σ) : Doing σ → Desk σ
  | .incident i => d.undergo sink i
  | .flush spans =>
    let requests := batches d.writer.settings.limits spans
    { d with writer := { d.writer with ahead := d.writer.ahead ++ requests } }

/-- The desk after some doings. -/
def carried (d : Desk σ) (xs : List (Doing σ)) : Desk σ := xs.foldl (carry sink) d

/-- What is seen at the moves in the course of some doings. -/
def seen (look : Desk σ → Option α) : Desk σ → List (Doing σ) → List α
  | _, [] => []
  | d, x :: xs => (if x.isMove then look d else none).toList ++ seen look (d.carry sink x) xs

/-- The rest that the next move begins. -/
def rest? (d : Desk σ) : Option Rest :=
  match d.step? sink with
  | none => none
  | some d' => d'.writer.phase.wake?.map (Rest.mk d.now)

/-- The rests that begin in the course of some doings. -/
def rests (d : Desk σ) (xs : List (Doing σ)) : List Rest := d.seen sink (rest? sink) xs

/-- The times at which requests are sent in the course of some doings. -/
def requestTimes (d : Desk σ) (xs : List (Doing σ)) : List Nat :=
  d.seen sink (fun d => d.request?.map fun _ => d.now) xs

/-- The answers that are heard in the course of some doings. -/
def replies (d : Desk σ) (xs : List (Doing σ)) : List Hearing := d.seen sink (hearing? sink) xs

/-- The delay at first and after each answer. -/
def delays (d : Desk σ) (xs : List (Doing σ)) : List Nat :=
  d.writer.backoff.current :: (d.replies sink xs).map fun h => h.settlement.backoff.current

end

variable {sink : Sink σ} {d d' : Desk σ}

theorem carried_occurrences (sink : Sink σ) (d : Desk σ) (os : List Occurrence) :
    d.carried sink (os.map fun o => .incident (.occurrence o)) = d.course sink os := by
  unfold carried course
  rw [List.foldl_map]
  rfl

/-- A flush that is carried out to its end is a course of doings. -/
theorem exists_carried_flush (sink : Sink σ) {d : Desk σ} (ha : d.writer.ahead = [])
    (spans : List Span) :
    ∃ xs, (d.enqueueSpans spans).run sink none = d.carried sink (.flush spans :: xs) := by
  obtain ⟨os, -, hrun⟩ := exists_course_moves sink none _ (d.enqueueSpans spans)
  have hflush : d.carry sink (.flush spans) = d.enqueueSpans spans := by
    simp only [carry, ha, List.nil_append, enqueueSpans]
  refine ⟨os.map fun o => .incident (.occurrence o), ?_⟩
  rw [carried, List.foldl_cons, hflush]
  exact hrun.trans (carried_occurrences sink _ os).symm

/-! ### One doing -/

/-- A doing takes a desk to another one, with a rest that begins, a time at which a request is sent and
an answer that is heard, if there are any. -/
inductive Passage (d d' : Desk σ) : Option Rest → Option Nat → Option Hearing → Prop
  | idle (hb : d'.writer.backoff = d.writer.backoff)
      (hp : d'.writer.phase = d.writer.phase ∨
        d.writer.phase = .ready ∧ d'.writer.phase = .stopped) : Passage d d' none none none
  | begin {delivery : Delivery} (hb : d'.writer.backoff = d.writer.backoff)
      (hp : d.writer.phase = .ready)
      (hp' : d'.writer.phase = .resting (d.now + d'.writer.backoff.current) delivery) :
      Passage d d' (some ⟨d.now, d.now + d'.writer.backoff.current⟩) none none
  | send {wake back : Nat} {delivery : Delivery} (hb : d'.writer.backoff = d.writer.backoff)
      (hp : d.writer.phase = .resting wake delivery) (hw : wake ≤ d.now)
      (hp' : d'.writer.phase = .waiting back delivery) : Passage d d' none (some d.now) none
  | hear {wake : Nat} {delivery : Delivery} {h : Hearing} (hb : d'.writer.backoff = h.settlement.backoff)
      (hu : h.settlement.backoff = d.writer.backoff.after h.upshot)
      (hp : d.writer.phase = .waiting wake delivery)
      (hp' : d'.writer.phase = .ready) : Passage d d' none none (some h)
  | hearAgain {wake : Nat} {delivery next : Delivery} {h : Hearing}
      (hb : d'.writer.backoff = h.settlement.backoff)
      (hu : h.settlement.backoff = d.writer.backoff.after h.upshot)
      (hp : d.writer.phase = .waiting wake delivery)
      (hp' : d'.writer.phase = .resting (d.now + d'.writer.backoff.current) next) :
      Passage d d' (some ⟨d.now, d.now + d'.writer.backoff.current⟩) none (some h)

theorem none_of_step?_eq_none (h : d.step? sink = none) :
    d.request? = none ∧ d.hearing? sink = none := by
  unfold step? at h
  unfold request? hearing?
  cases hp : d.writer.phase with
  | ready | stopped => exact ⟨rfl, rfl⟩
  | resting wake delivery | waiting wake delivery =>
    rw [hp] at h
    dsimp only at h ⊢
    split at h
    · cases h
    · rename_i hw
      simp [hw]

theorem passage_step (h : d.step? sink = some d') :
    Passage d d' (d'.writer.phase.wake?.map (Rest.mk d.now)) (d.request?.map fun _ => d.now)
      (d.hearing? sink) := by
  cases step_of_step? h with
  | send hp hw =>
    rw [send_eq, request?, hearing?, hp]
    dsimp only
    rw [if_pos hw]
    exact .send rfl hp hw rfl
  | @hear wake delivery hp hw =>
    have hb := Delivery.backoff_settle d.writer.settings.maxRetries d.writer.backoff
      ((sink.answer d.writer.settings.index delivery.documents d.store).2.1.foldl Account.note d.account)
      delivery (sink.answer d.writer.settings.index delivery.documents d.store).2.2
    rw [hear_eq, request?, hearing?, hp]
    dsimp only
    rw [if_pos hw]
    cases hnext : (d.settlement sink delivery).next with
    | none =>
      have hphase : Settlement.phase (d.settlement sink delivery) d.now = .ready := by
        rw [Settlement.phase, hnext]
      rw [hphase]
      exact .hear rfl hb hp rfl
    | some next =>
      have hphase : Settlement.phase (d.settlement sink delivery) d.now =
          .resting (d.now + (d.settlement sink delivery).backoff.current) next := by
        rw [Settlement.phase, hnext]
      rw [hphase]
      exact .hearAgain rfl hb hp rfl
  | begin hp =>
    rw [request?, hearing?, hp]
    exact .begin rfl hp rfl
  | take n hp =>
    rw [request?, hearing?, hp]
    have hphase : (d.process (d.queue.drain n).1 (d.queue.drain n).2).writer.phase = .ready := hp
    rw [hphase]
    exact .idle rfl (Or.inl (hphase.trans hp.symm))
  | close hp =>
    rw [request?, hearing?, hp]
    have hphase : d.close.writer.phase = .ready := hp
    rw [hphase]
    exact .idle rfl (Or.inl (hphase.trans hp.symm))
  | stop hp =>
    rw [request?, hearing?, hp]
    exact .idle rfl (Or.inr ⟨hp, rfl⟩)

/-- **What one doing is to the writer.** -/
theorem passage_carry (sink : Sink σ) (d : Desk σ) (x : Doing σ) :
    Passage d (d.carry sink x) (if x.isMove then d.rest? sink else none)
      (if x.isMove then d.request?.map fun _ => d.now else none)
      (if x.isMove then d.hearing? sink else none) := by
  cases x with
  | flush spans => exact .idle rfl (Or.inl rfl)
  | incident i =>
    cases i with
    | change f => exact .idle rfl (Or.inl rfl)
    | occurrence o =>
      cases o with
      | offer | wait | stop | orphan => exact .idle rfl (Or.inl rfl)
      | move =>
        have hmove : d.carry sink (.incident (.occurrence .move)) = (d.step? sink).getD d := rfl
        rw [hmove, rest?]
        cases hs : d.step? sink with
        | none =>
          obtain ⟨hrequest, hheard⟩ := none_of_step?_eq_none hs
          rw [hrequest, hheard]
          exact .idle rfl (Or.inl rfl)
        | some d' => exact passage_step hs

/-! ### A course of doings -/

theorem exists_passage (sink : Sink σ) (d : Desk σ) (x : Doing σ) : ∃ rest time heard,
    Passage d (d.carry sink x) rest time heard ∧ ∀ xs,
      d.rests sink (x :: xs) = rest.toList ++ (d.carry sink x).rests sink xs ∧
      d.requestTimes sink (x :: xs) = time.toList ++ (d.carry sink x).requestTimes sink xs ∧
      d.replies sink (x :: xs) = heard.toList ++ (d.carry sink x).replies sink xs :=
  ⟨_, _, _, passage_carry sink d x, fun _ => ⟨rfl, rfl, rfl⟩⟩

/-- **The delays** follow from the upshots of the answers. -/
theorem delays_eq_scanl (xs : List (Doing σ)) (d : Desk σ) :
    d.delays sink xs =
      (((d.replies sink xs).map Hearing.upshot).scanl Backoff.after d.writer.backoff).map
        Backoff.current := by
  unfold delays
  induction xs generalizing d with
  | nil => rfl
  | cons x xs ih =>
    obtain ⟨rest, time, heard, hx, hseen⟩ := exists_passage sink d x
    rw [(hseen xs).2.2]
    cases hx with
    | idle hb | begin hb | send hb =>
      rw [← hb]
      exact ih _
    | hear hb hu | hearAgain hb hu =>
      simp only [Option.toList_some, List.singleton_append, List.map_cons, List.scanl_cons]
      rw [← hu, ← hb]
      exact congrArg _ (ih _)

/-- The present delay is the one after the last answer. -/
theorem current_carried (xs : List (Doing σ)) (d : Desk σ) :
    (d.delays sink xs).getLast? = some (d.carried sink xs).writer.backoff.current := by
  unfold delays
  induction xs generalizing d with
  | nil => rfl
  | cons x xs ih =>
    obtain ⟨rest, time, heard, hx, hseen⟩ := exists_passage sink d x
    have hcarried : d.carried sink (x :: xs) = (d.carry sink x).carried sink xs := rfl
    rw [hcarried, ← ih, (hseen xs).2.2]
    cases hx with
    | idle hb | begin hb | send hb => rw [← hb]; rfl
    | hear hb | hearAgain hb =>
      rw [Option.toList_some, List.singleton_append, List.map_cons, ← hb, List.getLast?_cons_cons]

/-- **The rests** are as long as the delays. A request that is under way has had its rest. -/
theorem rests_isPrefix (sink : Sink σ) (xs : List (Doing σ)) (d : Desk σ) :
    (d.rests sink xs).map Rest.length <+:
      if d.writer.phase.isBusy then (d.delays sink xs).tail else d.delays sink xs := by
  unfold delays
  induction xs generalizing d with
  | nil => exact List.nil_prefix
  | cons x xs ih =>
    obtain ⟨rest, time, heard, hx, hseen⟩ := exists_passage sink d x
    rw [(hseen xs).1, (hseen xs).2.2]
    have hrest := ih (d.carry sink x)
    cases hx with
    | idle hb hp =>
      have hbusy : (d.carry sink x).writer.phase.isBusy = d.writer.phase.isBusy := by
        rcases hp with hp | ⟨hp, hp'⟩
        · rw [hp]
        · rw [hp, hp']
          rfl
      rwa [hbusy, hb] at hrest
    | begin hb hp hp' =>
      rw [hp'] at hrest
      rw [hp, ← hb]
      exact List.cons_prefix_cons.2 ⟨Nat.add_sub_cancel_left .., hrest⟩
    | send hb hp hw hp' =>
      rw [hp', hb] at hrest
      rw [hp]
      exact hrest
    | hear hb hu hp hp' =>
      rw [hp', hb] at hrest
      rw [hp]
      exact hrest
    | hearAgain hb hu hp hp' =>
      rw [hp'] at hrest
      simp only [Option.toList_some, List.singleton_append, List.map_cons]
      rw [hp, ← hb]
      exact List.cons_prefix_cons.2 ⟨Nat.add_sub_cancel_left .., hrest⟩

/-- **No request is sent before its rest is over.** -/
theorem requestTimes_after_rests (sink : Sink σ) (xs : List (Doing σ)) (d : Desk σ) :
    List.Forall₂ (· ≤ ·)
      ((d.writer.phase.wake?.toList ++ (d.rests sink xs).map Rest.wake).take
        (d.requestTimes sink xs).length)
      (d.requestTimes sink xs) := by
  induction xs generalizing d with
  | nil => exact .nil
  | cons x xs ih =>
    obtain ⟨rest, time, heard, hx, hseen⟩ := exists_passage sink d x
    rw [(hseen xs).1, (hseen xs).2.1]
    have hrest := ih (d.carry sink x)
    cases hx with
    | idle hb hp =>
      have hwake : (d.carry sink x).writer.phase.wake? = d.writer.phase.wake? := by
        rcases hp with hp | ⟨hp, hp'⟩
        · rw [hp]
        · rw [hp, hp']
          rfl
      rwa [hwake] at hrest
    | begin hb hp hp' | hearAgain hb hu hp hp' =>
      rw [hp'] at hrest
      rw [hp]
      exact hrest
    | send hb hp hw hp' =>
      rw [hp'] at hrest
      rw [hp]
      exact .cons hw hrest
    | hear hb hu hp hp' =>
      rw [hp'] at hrest
      rw [hp]
      exact hrest

/-- **The delay before the requests** of a writer that starts without one. The rests are as long as the
delays at first and after each answer, and no request is sent before its rest is over. The delays follow
the upshots of the answers as the `DelayLaw` says. -/
theorem delay_law (sink : Sink σ) (hp : d.writer.phase = .ready)
    (h0 : d.writer.backoff.current = 0) (hle : d.writer.backoff.min ≤ d.writer.backoff.max)
    (xs : List (Doing σ)) :
    let delays := d.delays sink xs
    let rests := d.rests sink xs
    let times := d.requestTimes sink xs
    rests.map Rest.length <+: delays ∧
    List.Forall₂ (fun rest time => rest.wake ≤ time) (rests.take times.length) times ∧
    delays.getLast? = some (d.carried sink xs).writer.backoff.current ∧
    DelayLaw d.writer.backoff.min d.writer.backoff.max
      ((d.replies sink xs).map Hearing.upshot) delays := by
  intro delays rests times
  have hrests := rests_isPrefix sink xs d
  have htimes := requestTimes_after_rests sink xs d
  rw [hp] at hrests htimes
  refine ⟨hrests, ?_, current_carried xs d, ?_⟩
  · have htaken : (rests.map Rest.wake).take times.length = (rests.take times.length).map Rest.wake :=
      List.map_take.symm
    have hforall : List.Forall₂ (· ≤ ·) ((rests.map Rest.wake).take times.length) times := htimes
    rw [htaken, List.forall₂_map_left_iff] at hforall
    exact hforall
  · rw [show delays = _ from delays_eq_scanl xs d]
    exact Backoff.delayLaw_scanl hle h0 _

/-- Three requests of a span fail, and the fourth one is confirmed. Another span is flushed then, with a
delay that is no doubled minimum. -/
theorem delay_law_busy :
    let config : Config :=
      { Config.default with minRetryDelayMs := 100, maxRetryDelayMs := 350 }
    let busy : Cue := .fail (.server "busy")
    let script : List Cue := [busy, busy, busy, .reply [.ok "a"], .reply [.ok "b"]]
    let d : Desk ScriptedStore := .of config.queue config.writer ⟨.empty, script, []⟩
    let later : List (Doing ScriptedStore) :=
      [.incident (.occurrence .move), .incident (.occurrence (.wait 350000000))]
    let xs := .flush [.bare "a"] :: .flush [.bare "b"] :: (List.replicate 12 later).flatten
    let rests := d.rests ScriptedStore.sink xs
    d.writer.phase = .ready ∧ d.writer.backoff.current = 0 ∧
      d.writer.backoff.min ≤ d.writer.backoff.max ∧
      rests.map Rest.length = [0, 100000000, 200000000, 350000000, 175000000] ∧
      rests.map Rest.length <+: d.delays ScriptedStore.sink xs ∧
      DelayLaw 100000000 350000000
        ((d.replies ScriptedStore.sink xs).map Hearing.upshot) (d.delays ScriptedStore.sink xs) := by
  intro config busy script d later xs rests
  have hle : d.writer.backoff.min ≤ d.writer.backoff.max := by decide
  have hmin : d.writer.backoff.min = 100000000 := by decide +kernel
  have hmax : d.writer.backoff.max = 350000000 := by decide +kernel
  obtain ⟨hrests, -, -, hlaw⟩ := delay_law ScriptedStore.sink (d := d) rfl rfl hle xs
  rw [hmin, hmax] at hlaw
  exact ⟨rfl, rfl, hle, by decide +kernel, hrests, hlaw⟩

end Desk

end SpanRelay

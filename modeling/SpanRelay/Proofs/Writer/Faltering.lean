import SpanRelay.Proofs.Writer.Offers
import SpanRelay.Proofs.Writer.Prospect
import SpanRelay.Proofs.Writer.Sent

/-! # Stores that falter

A store is `Faltering` if it accepts all documents of a request or fails the request as a whole, for a
reason that is worth a repetition. The writer repeats a request whenever that happens, so as long as
the store does not fail more requests in a row than there are repetitions, no move changes what the
store will hold (`endures_move`). In the end it holds of each id the last version that was accepted
(`content_of_stopped`). -/

namespace SpanRelay

/-- No more than so many answers in a row are failures of the request. -/
def FailsAtMost (limit : Nat) (answers : List Answer) : Prop :=
  ∀ run, run <:+: answers → (∀ a ∈ run, a.isOk = false) → run.length ≤ limit

/-- How many requests of the present delivery have failed. -/
def Phase.attempts : Phase → Nat
  | .resting _ delivery | .waiting _ delivery => delivery.attempts
  | .ready | .stopped => 0

/-- A store that accepts the good documents of a request, or fails the request as a whole for a reason
that is worth a repetition. -/
structure Sink.Faltering {σ β : Type} (sink : Sink σ) (index : String) (v : StoreView σ β)
    (good : Document → Prop) : Prop where
  receive : sink.Receptive index v
  answer : ∀ ds store, v.calm store → (ds.map Document.id).Nodup → (∀ d ∈ ds, good d) →
    v.calm (sink.answer index ds store).1 ∧
      ((∃ e, (sink.answer index ds store).2.2 = .error e ∧ e.isRetryable = true ∧
          v.content (sink.answer index ds store).1 = v.content store) ∨
        (∃ response, (sink.answer index ds store).2.2 = .ok response ∧
          response.hasFailures = false) ∧
        ∀ id, v.content (sink.answer index ds store).1 id =
          (v.among ds id).or (v.content store id))

/-- A change from outside leaves a calm store calm, and what it holds. -/
def Incident.Harmless {σ β : Type} (v : StoreView σ β) : Incident σ → Prop
  | .occurrence _ => True
  | .change f => ∀ store, v.calm store → v.calm (f store) ∧ v.content (f store) = v.content store

namespace Desk

variable {σ β : Type} (sink : Sink σ)

/-- The answer that is heard at an incident. -/
def answer? (d : Desk σ) : Incident σ → Option Answer
  | .occurrence .move =>
    match d.writer.phase with
    | .waiting wake delivery =>
      if wake ≤ d.now then
        some (sink.answer d.writer.settings.index delivery.documents d.store).2.2
      else none
    | .ready | .resting _ _ | .stopped => none
  | .occurrence (.offer _) | .occurrence (.wait _) | .occurrence .stop | .occurrence .orphan
  | .change _ => none

/-- The answers that are heard in the course of some incidents. -/
def answers : Desk σ → List (Incident σ) → List Answer
  | _, [] => []
  | d, i :: is => (d.answer? sink i).toList ++ answers (d.undergo sink i) is

variable {sink} {v : StoreView σ β} {good : Document → Prop} {before : String → Option β}
  {spans : List Span} {past : List Answer} {d d' : Desk σ}

/-- No accepted span is lost, after the answers `past` and over what the store held `before`. -/
structure Endures (v : StoreView σ β) (good : Document → Prop) (before : String → Option β)
    (spans : List Span) (past : List Answer) (d : Desk σ) : Prop where
  awaits : d.Awaits v (v.after spans before)
  carries : d.Carries good fun _ => True
  attempts : ∃ run, run <:+ past ∧ (∀ a ∈ run, a.isOk = false) ∧
    d.writer.phase.attempts = run.length
  closing : d.writer.closing = true → d.queue.closed = true
  stopped : d.writer.phase = .stopped → d.queue.closed = true

theorem keeps_true (sink : Sink σ) (good : Document → Prop) : sink.Keeps good fun _ => True :=
  ⟨fun _ _ _ _ _ _ => trivial, fun _ _ _ _ _ => trivial⟩

theorem attempts_of_eq_zero {phase : Phase} (h : phase.attempts = 0) (past : List Answer) :
    ∃ run, run <:+ past ∧ (∀ a ∈ run, Except.isOk a = false) ∧ phase.attempts = run.length :=
  ⟨[], List.nil_suffix, nofun, h⟩

/-! ### Answers -/

theorem settle_of_error {delivery : Delivery} {maxRetries : Nat} {e : RelayError}
    (he : e.isRetryable = true) (hle : delivery.attempts + 1 ≤ maxRetries) (backoff : Backoff)
    (a : Account) : ∃ next, (delivery.settle maxRetries backoff a (.error e)).next = some next ∧
      next.documents = delivery.documents ∧ next.attempts = delivery.attempts + 1 := by
  have hattempts : (delivery.addReason e.message).attempts = delivery.attempts := rfl
  refine ⟨{ delivery.addReason e.message with attempts := delivery.attempts + 1 }, ?_, rfl, rfl⟩
  unfold Delivery.settle
  dsimp only
  rw [if_pos he]
  unfold Delivery.retry
  dsimp only
  rw [hattempts, if_neg (Nat.not_lt.2 hle)]

theorem closing_hear (h : d.writer.closing = true → d.queue.closed = true) (delivery : Delivery) :
    (d.hear sink delivery).writer.closing = true → (d.hear sink delivery).queue.closed = true := by
  rw [hear_eq]
  exact h

theorem awaits_hear_of_error {expected : String → Option β} (h : d.Awaits v expected) {wake : Nat}
    {delivery : Delivery} (hp : d.writer.phase = .waiting wake delivery) {e : RelayError}
    (hcalm : v.calm (sink.answer d.writer.settings.index delivery.documents d.store).1)
    (hanswer : (sink.answer d.writer.settings.index delivery.documents d.store).2.2 = .error e)
    (he : e.isRetryable = true)
    (hcontent : v.content (sink.answer d.writer.settings.index delivery.documents d.store).1 =
      v.content d.store) (hle : delivery.attempts + 1 ≤ d.writer.settings.maxRetries) :
    (d.hear sink delivery).Awaits v expected ∧
      (d.hear sink delivery).writer.phase.attempts = delivery.attempts + 1 := by
  obtain ⟨next, hnext, hdocs, hattempts⟩ := settle_of_error he hle d.writer.backoff
    ((sink.answer d.writer.settings.index delivery.documents d.store).2.1.foldl Account.note d.account)
  have hphase : ∃ wake', (d.hear sink delivery).writer.phase = .resting wake' next := by
    rw [hear_eq]
    dsimp only
    unfold Settlement.phase settlement
    dsimp only
    rw [hanswer, hnext]
    exact ⟨_, rfl⟩
  obtain ⟨wake', hphase⟩ := hphase
  have hunder : (d.hear sink delivery).underway = d.underway := by
    have hahead : (d.hear sink delivery).writer.ahead = d.writer.ahead := by rw [hear_eq]
    rw [underway_of_waiting hp, underway, hphase, hahead]
    exact congrArg (· ++ _) hdocs
  refine ⟨⟨?_, ?_, ?_, fun id => ?_, ?_⟩, ?_⟩
  · rw [hear_eq]
    exact hcalm
  · rw [hunder]
    exact h.nodup
  · rw [hunder]
    exact h.spans
  · have hid := h.prospect id
    unfold prospect at hid ⊢
    rw [hunder, hear_eq]
    dsimp only
    rw [hcontent]
    exact hid
  · rw [hphase]
    intro hstop
    cases hstop
  · rw [hphase]
    exact hattempts

/-! ### Moves of the writer -/

theorem endures_step (hs : sink.Faltering d.writer.settings.index v good)
    (hl : 0 < d.writer.settings.drainLength) (h : Step sink d d')
    (hp : ∀ wake delivery, d.writer.phase ≠ .waiting wake delivery)
    (he : d.Endures v good before spans past) : d'.Endures v good before spans past := by
  refine ⟨awaits_step_of_hear hs.receive (fun wake delivery hw => absurd hw (hp wake delivery)) h
    he.awaits hl, carries_step (keeps_true sink good) h he.carries, ?_, ?_, ?_⟩
  · cases h with
    | send hr =>
      have hattempts := he.attempts
      rw [hr] at hattempts
      exact hattempts
    | hear hw => exact absurd hw (hp _ _)
    | begin | stop => exact attempts_of_eq_zero rfl _
    | take n hr => exact attempts_of_eq_zero (congrArg Phase.attempts hr) _
    | close hr => exact attempts_of_eq_zero (congrArg Phase.attempts hr) _
  · cases h with
    | send | begin | stop => exact he.closing
    | hear hw => exact absurd hw (hp _ _)
    | take => exact fun hc => (WriteQueue.closed_releaseAll _ _).trans (he.closing hc)
    | close => exact fun _ => rfl
  · cases h with
    | send | begin => exact nofun
    | hear hw => exact absurd hw (hp _ _)
    | take n hr => exact fun hst => nomatch hr.symm.trans hst
    | close hr => exact fun _ => rfl
    | stop _ _ hc => exact fun _ => he.closing hc

theorem occur_of_waiting {wake : Nat} {delivery : Delivery}
    (hp : d.writer.phase = .waiting wake delivery) (hw : wake ≤ d.now) :
    d.occur sink .move = d.hear sink delivery := by
  unfold occur step?
  rw [hp]
  dsimp only
  rw [if_pos hw]
  rfl

theorem answer?_of_waiting {wake : Nat} {delivery : Delivery}
    (hp : d.writer.phase = .waiting wake delivery) (hw : wake ≤ d.now) :
    d.answer? sink (.occurrence .move) =
      some (sink.answer d.writer.settings.index delivery.documents d.store).2.2 := by
  unfold answer?
  rw [hp]
  exact if_pos hw

theorem answer?_of_not_waiting
    (h : ¬ ∃ wake delivery, d.writer.phase = .waiting wake delivery ∧ wake ≤ d.now) :
    d.answer? sink (.occurrence .move) = none := by
  unfold answer?
  dsimp only
  split
  · rename_i wake delivery hp
    exact if_neg fun hw => h ⟨wake, delivery, hp, hw⟩
  all_goals rfl

theorem endures_hear_of_error (he : d.Endures v good before spans past) {wake : Nat}
    {delivery : Delivery} (hp : d.writer.phase = .waiting wake delivery) (hw : wake ≤ d.now)
    {e : RelayError}
    (hcalm : v.calm (sink.answer d.writer.settings.index delivery.documents d.store).1)
    (hanswer : (sink.answer d.writer.settings.index delivery.documents d.store).2.2 = .error e)
    (hretry : e.isRetryable = true)
    (hcontent : v.content (sink.answer d.writer.settings.index delivery.documents d.store).1 =
      v.content d.store)
    (hrow : FailsAtMost d.writer.settings.maxRetries (past ++ [.error e])) :
    (d.hear sink delivery).Endures v good before spans (past ++ [.error e]) := by
  obtain ⟨run, hsuffix, hfails, hlen⟩ := he.attempts
  rw [hp] at hlen
  have hrun : ∀ a ∈ run ++ [(Except.error e : Answer)], a.isOk = false := by
    intro a ha
    rcases List.mem_append.1 ha with ha | ha
    · exact hfails a ha
    · rw [List.mem_singleton.1 ha]
      rfl
  have hsuffix' : run ++ [(Except.error e : Answer)] <:+ past ++ [.error e] := by
    obtain ⟨front, rfl⟩ := hsuffix
    exact ⟨front, (List.append_assoc _ _ _).symm⟩
  have hle := hrow _ hsuffix'.isInfix hrun
  rw [List.length_append, List.length_singleton, ← hlen] at hle
  obtain ⟨hawaits, hattempts⟩ :=
    awaits_hear_of_error he.awaits hp hcalm hanswer hretry hcontent hle
  refine ⟨hawaits, carries_step (keeps_true sink good) (.hear hp hw) he.carries,
    ⟨_, hsuffix', hrun, ?_⟩, closing_hear he.closing delivery,
    fun hst => absurd hst (phase_hear_ne_stopped delivery)⟩
  rw [hattempts, List.length_append, List.length_singleton, ← hlen]
  rfl

theorem endures_hear_of_accepted (he : d.Endures v good before spans past) {wake : Nat}
    {delivery : Delivery} (hp : d.writer.phase = .waiting wake delivery) (hw : wake ≤ d.now)
    (hcalm : v.calm (sink.answer d.writer.settings.index delivery.documents d.store).1)
    (hok : ∃ response, (sink.answer d.writer.settings.index delivery.documents d.store).2.2 =
      .ok response ∧ response.hasFailures = false)
    (hcontent : ∀ id, v.content (sink.answer d.writer.settings.index delivery.documents d.store).1 id =
      (v.among delivery.documents id).or (v.content d.store id)) (now : List Answer) :
    (d.hear sink delivery).Endures v good before spans now := by
  have hphase : (d.hear sink delivery).writer.phase = .ready := by
    rw [hear_eq]
    dsimp only
    unfold Settlement.phase
    rw [show d.settlement sink delivery = _ from settle_of_accepted _ _ _ _ hok]
  exact ⟨(awaits_hear_of_accepted he.awaits hp hcalm hok hcontent).1,
    carries_step (keeps_true sink good) (.hear hp hw) he.carries,
    attempts_of_eq_zero (congrArg Phase.attempts hphase) _, closing_hear he.closing delivery,
    fun hst => absurd hst (phase_hear_ne_stopped delivery)⟩

/-- **A move of the writer** loses no span, unless too many requests failed in a row. -/
theorem endures_move (hs : sink.Faltering d.writer.settings.index v good)
    (hl : 0 < d.writer.settings.drainLength) (he : d.Endures v good before spans past)
    (hrow : FailsAtMost d.writer.settings.maxRetries
      (past ++ (d.answer? sink (.occurrence .move)).toList)) :
    (d.occur sink .move).Endures v good before spans
      (past ++ (d.answer? sink (.occurrence .move)).toList) := by
  by_cases hwait : ∃ wake delivery, d.writer.phase = .waiting wake delivery ∧ wake ≤ d.now
  · obtain ⟨wake, delivery, hp, hw⟩ := hwait
    rw [answer?_of_waiting hp hw, Option.toList_some] at hrow ⊢
    rw [occur_of_waiting hp hw]
    have hgood : ∀ doc ∈ delivery.documents, good doc := fun doc hdoc =>
      he.carries.underway doc (mem_underway_of_documents (by rw [hp]; exact hdoc))
    obtain ⟨hcalm, ⟨e, herr, hretry, hcontent⟩ | ⟨hok, hcontent⟩⟩ :=
      hs.answer delivery.documents d.store he.awaits.calm (nodup_of_waiting he.awaits.nodup hp) hgood
    · rw [herr] at hrow ⊢
      exact endures_hear_of_error he hp hw hcalm herr hretry hcontent hrow
    · exact endures_hear_of_accepted he hp hw hcalm hok hcontent _
  · rw [answer?_of_not_waiting hwait, Option.toList_none, List.append_nil]
    unfold occur
    cases hstep : d.step? sink with
    | none => exact he
    | some d' =>
      refine endures_step hs hl (step_of_step? hstep) (fun wake delivery hp => ?_) he
      unfold step? at hstep
      rw [hp] at hstep
      dsimp only at hstep
      split at hstep
      · rename_i hw
        exact hwait ⟨wake, delivery, hp, hw⟩
      · cases hstep

/-! ### Offers -/

theorem schedule_outcome (d : Desk σ) (span : Span) : ∃ budget account,
    ((d.schedule span).2 = .queued ∧ d.queue.closed = false ∧ (d.schedule span).1 = { d with
      queue := { d.queue with budget, elements := d.queue.elements ++ [.of span] }, account }) ∨
    ((d.schedule span).2 ≠ .queued ∧
      (d.schedule span).1 = { d with queue := { d.queue with budget }, account }) := by
  unfold schedule WriteQueue.schedule
  dsimp only
  cases d.queue.budget.acquire? (QueueElement.of span).size with
  | none => exact ⟨_, _, Or.inr ⟨nofun, rfl⟩⟩
  | some budget =>
    dsimp only
    split
    · exact ⟨_, _, Or.inr ⟨nofun, rfl⟩⟩
    · rename_i hc
      split
      · exact ⟨_, _, Or.inl ⟨rfl, Bool.eq_false_of_not_eq_true hc, rfl⟩⟩
      · exact ⟨_, _, Or.inr ⟨nofun, rfl⟩⟩

/-- The span becomes the last version of its id. -/
theorem awaits_queued {expected : String → Option β} (h : d.Awaits v expected)
    (hs : d.writer.phase ≠ .stopped) (span : Span) (budget : Budget) (account : Account) :
    Awaits v { d with
      queue := { d.queue with budget, elements := d.queue.elements ++ [.of span] }, account }
      (v.after [span] expected) := by
  refine ⟨h.calm, h.nodup, h.spans, fun id => ?_, fun hp => absurd hp hs⟩
  have hlast : lastSpan? id [QueueElement.of span] = lastVersion? id [span] := by
    by_cases h : span.id = id <;> simp [lastSpan?, lastVersion?, QueueElement.of, QueueElement.id, h]
  rw [StoreView.after, ← h.prospect id]
  unfold prospect
  rw [lastSpan?_append, hlast]
  cases lastVersion? id [span] <;> rfl

theorem accepted_cons (i : Incident σ) (is : List (Incident σ)) :
    d.accepted sink (i :: is) = d.accepted sink [i] ++ (d.undergo sink i).accepted sink is := by
  simp only [accepted, offers, List.append_nil, List.filter_append, List.map_append]

theorem accepted_offer (span : Span) : d.accepted sink [.occurrence (.offer span)] =
    if (d.schedule span).2 = .queued then [span] else [] := by
  simp only [accepted, offers, Incident.offered?, Option.map_some, Option.toList_some, List.append_nil]
  by_cases h : (d.schedule span).2 = .queued <;> simp [h]

theorem endures_offer (span : Span)
    (hgood : ∀ x ∈ d.accepted sink [.occurrence (.offer span)], good (.ofSpan x))
    (he : d.Endures v good before spans past) : (d.schedule span).1.Endures v good before
      (spans ++ d.accepted sink [.occurrence (.offer span)]) past := by
  rw [accepted_offer] at hgood ⊢
  obtain ⟨budget, account, ⟨hq, hopen, hd⟩ | ⟨hq, hd⟩⟩ := schedule_outcome d span
  · rw [if_pos hq] at hgood ⊢
    have hrunning : d.writer.phase ≠ .stopped := fun hp => by
      rw [he.stopped hp] at hopen
      cases hopen
    have hcarries := carries_schedule (hgood span List.mem_cons_self) he.carries
    rw [hd] at hcarries ⊢
    refine ⟨?_, hcarries, he.attempts, he.closing, he.stopped⟩
    rw [after_append]
    exact awaits_queued he.awaits hrunning span budget account
  · rw [if_neg hq, List.append_nil, hd]
    have hawaits := he.awaits
    exact ⟨⟨hawaits.calm, hawaits.nodup, hawaits.spans, hawaits.prospect, hawaits.stopped⟩,
      ⟨he.carries.queued, he.carries.underway, trivial⟩, he.attempts, he.closing, he.stopped⟩

/-! ### Histories -/

/-- **Whatever happens** at a desk and to its store loses no span. -/
theorem endures_undergo (hs : sink.Faltering d.writer.settings.index v good)
    (hl : 0 < d.writer.settings.drainLength) {i : Incident σ} (hi : i.Harmless v)
    (hgood : ∀ x ∈ d.accepted sink [i], good (.ofSpan x))
    (hrow : FailsAtMost d.writer.settings.maxRetries (past ++ (d.answer? sink i).toList))
    (he : d.Endures v good before spans past) :
    (d.undergo sink i).Endures v good before (spans ++ d.accepted sink [i])
      (past ++ (d.answer? sink i).toList) := by
  have hawaits := he.awaits
  -- what is no offer and no move is not heard and does not touch what is queued or on its way
  have still : ∀ {d' : Desk σ}, d'.Awaits v (v.after spans before) →
      d'.queue.elements = d.queue.elements → d'.queue.closed = d.queue.closed → d'.underway = d.underway →
      d'.writer.phase = d.writer.phase → d'.writer.closing = d.writer.closing →
      d'.Endures v good before (spans ++ []) (past ++ []) := by
    intro d' h hq hc hu hp hcl
    rw [List.append_nil, List.append_nil]
    exact ⟨h, ⟨by rw [hq]; exact he.carries.queued, by rw [hu]; exact he.carries.underway, trivial⟩,
      by rw [hp]; exact he.attempts, by rw [hc, hcl]; exact he.closing,
      by rw [hc, hp]; exact he.stopped⟩
  cases i with
  | change f =>
    obtain ⟨hcalm, hcontent⟩ := hi d.store hawaits.calm
    refine still ⟨hcalm, hawaits.nodup, hawaits.spans, fun id => ?_, hawaits.stopped⟩ rfl rfl rfl rfl
      rfl
    have hid := hawaits.prospect id
    unfold prospect at hid ⊢
    rw [← hid]
    exact congrArg (fun content => ((lastSpan? id d.queue.elements).map v.shown).or
      ((v.among d.underway id).or (content id))) hcontent
  | occurrence o =>
    cases o with
    | offer span =>
      have hnone : past ++ (d.answer? sink (.occurrence (.offer span))).toList = past :=
        List.append_nil past
      rw [hnone]
      exact endures_offer span hgood he
    | move =>
      have hnone : spans ++ d.accepted sink [.occurrence .move] = spans := List.append_nil spans
      rw [hnone]
      exact endures_move hs hl he hrow
    | wait | stop | orphan =>
      exact still ⟨hawaits.calm, hawaits.nodup, hawaits.spans, hawaits.prospect, hawaits.stopped⟩
        rfl rfl rfl rfl rfl

theorem settings_undergo (i : Incident σ) :
    (d.undergo sink i).writer.settings = d.writer.settings := by
  cases i with
  | change => rfl
  | occurrence o => exact settings_course [o] d

theorem endures_history (is : List (Incident σ))
    (hs : sink.Faltering d.writer.settings.index v good) (hl : 0 < d.writer.settings.drainLength)
    (hi : ∀ i ∈ is, i.Harmless v) (hgood : ∀ x ∈ d.accepted sink is, good (.ofSpan x))
    (hrow : FailsAtMost d.writer.settings.maxRetries (past ++ d.answers sink is))
    (he : d.Endures v good before spans past) :
    (d.history sink is).Endures v good before (spans ++ d.accepted sink is)
      (past ++ d.answers sink is) := by
  induction is generalizing d spans past with
  | nil =>
    have hspans : spans ++ d.accepted sink [] = spans := List.append_nil spans
    have hpast : past ++ d.answers sink [] = past := List.append_nil past
    rw [hspans, hpast]
    exact he
  | cons i is ih =>
    have hset : (d.undergo sink i).writer.settings = d.writer.settings := settings_undergo i
    rw [accepted_cons] at hgood ⊢
    rw [answers, ← List.append_assoc] at hrow ⊢
    rw [← List.append_assoc]
    have hfirst : FailsAtMost d.writer.settings.maxRetries (past ++ (d.answer? sink i).toList) :=
      fun run hrun => hrow run (hrun.trans (List.prefix_append _ _).isInfix)
    refine ih (by rw [hset]; exact hs) (by rw [hset]; exact hl)
      (fun i' hi' => hi i' (List.mem_cons_of_mem _ hi'))
      (fun x hx => hgood x (List.mem_append_right _ hx)) (by rw [hset]; exact hrow) ?_
    exact endures_undergo hs hl (hi i List.mem_cons_self)
      (fun x hx => hgood x (List.mem_append_left _ hx)) hfirst he

/-! ### From the start to the end -/

theorem endures_of (capacity maxBytes : Nat) (settings : WriterSettings) (backoff : Backoff)
    {store : σ} (hcalm : v.calm store) :
    Endures v good (v.content store) [] []
      (.of (.of capacity maxBytes) (.of settings backoff) store) where
  awaits := ⟨hcalm, List.nodup_nil, nofun, fun _ => rfl, nofun⟩
  carries := carries_of capacity maxBytes settings backoff trivial
  attempts := attempts_of_eq_zero rfl _
  closing := nofun
  stopped := nofun

/-- **In the end** the store holds of each id the last version that was accepted. -/
theorem content_of_stopped (capacity maxBytes : Nat) (settings : WriterSettings) (backoff : Backoff)
    {store : σ} (hcalm : v.calm store) (hs : sink.Faltering settings.index v good)
    (hl : 0 < settings.drainLength) (is : List (Incident σ)) (hi : ∀ i ∈ is, i.Harmless v) :
    let start := Desk.of (.of capacity maxBytes) (.of settings backoff) store
    (∀ x ∈ start.accepted sink is, good (.ofSpan x)) →
      FailsAtMost settings.maxRetries (start.answers sink is) →
      (start.history sink is).writer.phase = .stopped →
      v.calm (start.history sink is).store ∧ ∀ id, v.content (start.history sink is).store id =
        v.after (start.accepted sink is) (v.content store) id := by
  intro start hgood hrow hp
  have he : (start.history sink is).Endures v good (v.content store) (start.accepted sink is)
      (start.answers sink is) :=
    @endures_history _ _ sink v good _ [] [] start is hs hl hi hgood hrow
      (endures_of capacity maxBytes settings backoff hcalm)
  obtain ⟨hqueue, hunder⟩ := he.awaits.stopped hp
  refine ⟨he.awaits.calm, fun id => ?_⟩
  have hid := he.awaits.prospect id
  unfold prospect at hid
  rw [hqueue, hunder] at hid
  exact hid

end Desk

end SpanRelay

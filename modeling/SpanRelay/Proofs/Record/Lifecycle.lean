import SpanRelay.Proofs.Timestamp.Elapsed
import SpanRelay.Record.Span

/-! # The life of a span

A span that was opened is changed by `Span.Change`s in any order: what was captured before the
execution is set, the execution is completed or abandoned, the stamp is renewed. The fields that say
how the execution ended stay in agreement (`Span.Coherent`), each change preserving it
(`Span.Coherent.change`), and the fields that say what was executed stay as they are
(`Span.identity_changes`).

The outcomes that were reported decide the status and the exception (`Span.Told`): the status is that
of the last outcome, but the exception is that of the last failure, wherever it stands. -/

namespace SpanRelay

namespace Span

/-- What is done to a span after it was opened. -/
inductive Change
  | capture (before : Option Snapshot)
  | complete (after : Option Snapshot) (outcome : Outcome) (finished : Timestamp)
  | abandon
  | stamp (stamp : Stamp)

/-- The span after a change. -/
def change (x : Span) : Change → Span
  | .capture before => { x with before := before }
  | .complete after outcome finished => x.complete after outcome finished
  | .abandon => x.abandon
  | .stamp stamp => x.stampWith stamp

/-- The span after some changes, one by one. -/
def changes (x : Span) (cs : List Change) : Span := cs.foldl change x

theorem changes_cons (x : Span) (c : Change) (cs : List Change) :
    x.changes (c :: cs) = (x.change c).changes cs := rfl

/-! ### Progress -/

/-- Whether the execution is over after a change, as far as the change tells. -/
def Change.ends : Change → Bool
  | .complete .. | .abandon => true
  | .capture _ | .stamp _ => false

theorem abandon_status_ne (x : Span) : x.abandon.status ≠ .inProgress := by
  unfold abandon isInProgress
  split <;> simp_all

theorem status_change_eq_inProgress_iff (x : Span) (c : Change) :
    (x.change c).status = .inProgress ↔ x.status = .inProgress ∧ c.ends = false := by
  cases c with
  | capture before => exact (and_iff_left rfl).symm
  | complete after outcome finished =>
    have hne : outcome.status ≠ .inProgress := by cases outcome <;> nofun
    exact iff_of_false hne fun h => Bool.noConfusion h.2
  | abandon => exact iff_of_false x.abandon_status_ne fun h => Bool.noConfusion h.2
  | stamp stamp => exact (and_iff_left rfl).symm

/-- A span stays in progress until a change ends it, and never is in progress again. -/
theorem status_changes_eq_inProgress_iff (x : Span) (cs : List Change) :
    (x.changes cs).status = .inProgress ↔ x.status = .inProgress ∧ ∀ c ∈ cs, c.ends = false := by
  induction cs generalizing x with
  | nil => exact (and_iff_left (List.forall_mem_nil _)).symm
  | cons c cs ih =>
    rw [changes_cons, ih, status_change_eq_inProgress_iff, List.forall_mem_cons, and_assoc]

/-! ### Identity -/

/-- What is executed, where, and since when. -/
structure Identity where
  id : String
  sessionId : String
  elementId : String
  elementName : String
  typeTag : String
  parentId : Option String
  subChainId : Option String
  started : Timestamp
deriving DecidableEq

def identity (x : Span) : Identity where
  id := x.id
  sessionId := x.sessionId
  elementId := x.elementId
  elementName := x.elementName
  typeTag := x.typeTag
  parentId := x.parentId
  subChainId := x.subChainId
  started := x.started

theorem identity_change (x : Span) (c : Change) : (x.change c).identity = x.identity := by
  cases c with
  | abandon =>
    change x.abandon.identity = x.identity
    unfold abandon
    split <;> rfl
  | capture | complete | stamp => rfl

theorem identity_changes (x : Span) (cs : List Change) : (x.changes cs).identity = x.identity := by
  induction cs generalizing x with
  | nil => rfl
  | cons c cs ih => rw [changes_cons, ih, identity_change]

/-! ### Agreement -/

/-- The agreement of the fields that say how an execution ended. -/
structure Coherent (x : Span) : Prop where
  finished_none_iff :
    x.finished = none ↔ x.status = .inProgress ∨ x.status = .cancelledOrUnknown
  durationMs_none_iff :
    x.durationMs = none ↔ x.status = .inProgress ∨ x.status = .cancelledOrUnknown
  finished_of_after : x.after.isSome → x.finished.isSome
  exception_of_errors : x.status = .completedWithErrors → x.exception.isSome
  lasts : ∀ finished ∈ x.finished, ∀ ms ∈ x.durationMs, x.started.Lasts finished ms.toNat

theorem coherent_opened (id sessionId : String) (element : Element) (parentId : Option String)
    (started : Timestamp) (stamp : Stamp) :
    (opened id sessionId element parentId started stamp).Coherent where
  finished_none_iff := iff_of_true rfl (.inl rfl)
  durationMs_none_iff := iff_of_true rfl (.inl rfl)
  finished_of_after h := Bool.noConfusion h
  exception_of_errors h := Status.noConfusion h
  lasts _ h := absurd h (Option.not_mem_none _)

/-- A completion settles all the fields, whatever they were. -/
theorem coherent_complete (x : Span) (after : Option Snapshot) (outcome : Outcome)
    (finished : Timestamp) : (x.complete after outcome finished).Coherent where
  finished_none_iff := iff_of_false nofun (by cases outcome <;> nofun)
  durationMs_none_iff := iff_of_false nofun (by cases outcome <;> nofun)
  finished_of_after _ := rfl
  exception_of_errors h := by
    cases outcome with
    | failure exception => rfl
    | success | warning => exact nomatch h
  lasts := by
    rintro t ⟨⟩ ms ⟨⟩
    have hword := Nat.mod_eq_of_lt (x.started.elapsedMillis_lt finished)
    change x.started.Lasts finished (x.started.elapsedMillis finished % UInt64.size)
    rw [hword]
    exact x.started.lasts_elapsedMillis finished

theorem Coherent.abandon {x : Span} (h : x.Coherent) : x.abandon.Coherent := by
  unfold Span.abandon
  split
  · rename_i hprogress
    have hopen := of_decide_eq_true hprogress
    have hfinished := h.finished_none_iff.2 (.inl hopen)
    exact {
      finished_none_iff := iff_of_true hfinished (.inr rfl)
      durationMs_none_iff := iff_of_true (h.durationMs_none_iff.2 (.inl hopen)) (.inr rfl)
      finished_of_after := h.finished_of_after
      exception_of_errors := nofun
      lasts := h.lasts }
  · exact h

/-- **A change** preserves the agreement. -/
theorem Coherent.change {x : Span} (h : x.Coherent) (c : Change) : (x.change c).Coherent := by
  cases c with
  | capture before => exact ⟨h.1, h.2, h.3, h.4, h.5⟩
  | complete after outcome finished => exact x.coherent_complete after outcome finished
  | abandon => exact h.abandon
  | stamp stamp => exact ⟨h.1, h.2, h.3, h.4, h.5⟩

theorem Coherent.changes {x : Span} (h : x.Coherent) (cs : List Change) :
    (x.changes cs).Coherent := by
  induction cs generalizing x with
  | nil => exact h
  | cons c cs ih => exact ih (h.change c)

/-- **The life of a span.** Whatever is done to a span since it was opened, its fields agree: it has
no point of finish and no duration exactly as long as it is in progress or abandoned, nothing captured
afterwards without a point of finish, an exception if it ended with errors, and its duration is the
time from its start to its finish. It is in progress exactly if nothing has ended it, and its identity
is that with which it was opened. -/
theorem opened_changes_coherent (id sessionId : String) (element : Element)
    (parentId : Option String) (started : Timestamp) (stamp : Stamp) (cs : List Change) :
    let x := (opened id sessionId element parentId started stamp).changes cs
    x.Coherent ∧ (x.status = .inProgress ↔ ∀ c ∈ cs, c.ends = false) ∧
      x.identity = ⟨id, sessionId, element.elementId, element.name, element.typeTag, parentId,
        element.subChainId, started⟩ := by
  intro x
  have hprogress := status_changes_eq_inProgress_iff
    (opened id sessionId element parentId started stamp) cs
  exact ⟨(coherent_opened id sessionId element parentId started stamp).changes cs,
    hprogress.trans (and_iff_right rfl), identity_changes _ cs⟩

/-! ### What was reported -/

end Span

/-- The summary of a failure. -/
def Outcome.exception? : Outcome → Option ExceptionSummary
  | failure exception => some exception
  | success | warning => none

/-- The summary of the last failure. -/
def lastException? (os : List Outcome) : Option ExceptionSummary :=
  (os.filterMap Outcome.exception?).getLast?

theorem lastException?_concat (os : List Outcome) (o : Outcome) :
    lastException? (os ++ [o]) = o.exception?.or (lastException? os) := by
  unfold lastException?
  rw [List.filterMap_append, List.filterMap_cons, List.filterMap_nil]
  cases o.exception? with
  | none => simp
  | some exception => simp

theorem isSome_lastException?_iff {os : List Outcome} :
    (lastException? os).isSome ↔ ∃ o ∈ os, o.isFailure = true := by
  have hfailure : ∀ o : Outcome, o.exception?.isSome = o.isFailure := by
    intro o
    cases o <;> rfl
  rw [lastException?, List.getLast?_isSome]
  constructor
  · intro hne
    obtain ⟨exception, he⟩ := List.exists_mem_of_ne_nil _ hne
    obtain ⟨o, ho, he⟩ := List.mem_filterMap.1 he
    exact ⟨o, ho, (hfailure o).symm.trans (congrArg Option.isSome he)⟩
  · rintro ⟨o, ho, hf⟩
    obtain ⟨exception, he⟩ := Option.isSome_iff_exists.1 ((hfailure o).trans hf)
    exact List.ne_nil_of_mem (List.mem_filterMap.2 ⟨o, ho, he⟩)

/-- A failure was reported, and something else last. -/
def Recovers (os : List Outcome) : Prop :=
  (∃ o ∈ os, o.isFailure = true) ∧ ∀ o ∈ os.getLast?, o.isFailure = false

namespace Span

/-- The outcome that a change reports. -/
def Change.outcome? : Change → Option Outcome
  | .complete _ outcome _ => some outcome
  | .capture _ | .abandon | .stamp _ => none

/-- A span tells the outcomes that were reported for it, one after the other: the last one by its
status, and the last failure among them by its exception. -/
structure Told (os : List Outcome) (x : Span) : Prop where
  exception : x.exception = lastException? os
  status : ∀ o ∈ os.getLast?, x.status = o.status
  untold : os = [] → x.status = .inProgress ∨ x.status = .cancelledOrUnknown

namespace Told

variable {os : List Outcome} {x : Span}

theorem opened (id sessionId : String) (element : Element) (parentId : Option String)
    (started : Timestamp) (stamp : Stamp) :
    (Span.opened id sessionId element parentId started stamp).Told [] :=
  ⟨rfl, nofun, fun _ => .inl rfl⟩

theorem complete (h : x.Told os) (after : Option Snapshot) (o : Outcome) (finished : Timestamp) :
    (x.complete after o finished).Told (os ++ [o]) where
  exception := by
    rw [lastException?_concat, ← h.exception]
    cases o <;> rfl
  status o' ho := by
    rw [List.getLast?_concat] at ho
    rw [Option.mem_some_iff.1 ho]
    rfl
  untold hnil := absurd hnil (List.concat_ne_nil o os)

theorem abandon (h : x.Told os) : x.abandon.Told os := by
  unfold Span.abandon
  split
  · rename_i hprogress
    have hopen := of_decide_eq_true hprogress
    refine ⟨h.exception, fun o ho => ?_, fun _ => .inr rfl⟩
    have hstatus := h.status o ho
    rw [hopen] at hstatus
    cases o <;> cases hstatus
  · exact h

theorem stampWith (h : x.Told os) (stamp : Stamp) : (x.stampWith stamp).Told os :=
  ⟨h.exception, h.status, h.untold⟩

/-- **A change** adds what it reports. -/
theorem change (h : x.Told os) (c : Change) : (x.change c).Told (os ++ c.outcome?.toList) := by
  cases c with
  | complete after o finished => exact h.complete after o finished
  | abandon => exact (List.append_nil os).symm ▸ h.abandon
  | stamp stamp => exact (List.append_nil os).symm ▸ h.stampWith stamp
  | capture before => exact (List.append_nil os).symm ▸ ⟨h.exception, h.status, h.untold⟩

theorem changes (h : x.Told os) (cs : List Change) :
    (x.changes cs).Told (os ++ cs.filterMap Change.outcome?) := by
  induction cs generalizing x os with
  | nil => exact (List.append_nil os).symm ▸ h
  | cons c cs ih =>
    have hsplit : (c :: cs).filterMap Change.outcome? =
        c.outcome?.toList ++ cs.filterMap Change.outcome? := by
      rw [List.filterMap_cons]
      cases c.outcome? <;> rfl
    rw [hsplit, ← List.append_assoc]
    exact ih (h.change c)

/-- **An exception without a failed status** is there if and only if something else was reported
after the failures. -/
theorem exception_without_errors_iff (h : x.Told os) :
    (x.exception.isSome ∧ x.status ≠ .completedWithErrors) ↔ Recovers os := by
  rw [h.exception, isSome_lastException?_iff]
  refine and_congr_right fun ⟨o, ho, _⟩ => ?_
  obtain ⟨last, hlast⟩ := Option.isSome_iff_exists.1
    (List.getLast?_isSome.2 (List.ne_nil_of_mem ho))
  rw [h.status last hlast, hlast]
  cases last <;> simp [Outcome.status, Outcome.isFailure]

end Told

end Span

end SpanRelay

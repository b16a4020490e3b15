import SpanRelay.Proofs.Session.Calls
import SpanRelay.Proofs.Writer.Latest

/-! # Cached spans

A span that is cached stays so until its session ends, and has the status that was last reported for
it (`cachedAs_calls`). The end of the session hands it over with the final fields of the session
(`finish_cachedAs`), and since nothing of its id is handed over later, that is its last version
(`lastVersion?_of_cached`). -/

namespace SpanRelay

/-- The outcome last reported for a span. -/
def lastOutcome? (ref : SpanRef) (cs : List Call) : Option Outcome :=
  (cs.filterMap (Call.outcome? ref)).getLast?

/-- The status of a span after some calls. -/
def reported (ref : SpanRef) (cs : List Call) (status : Status) : Status :=
  (lastOutcome? ref cs).elim status Outcome.status

/-- The correlation id last given to a session. -/
def lastCorrelation? (s : String) (cs : List Call) : Option String :=
  (cs.filterMap (Call.correlation? s)).getLast?

/-- The session after some calls that do not end it. -/
def Session.during (session : Session) (cs : List Call) : Session :=
  { session with correlationId := (lastCorrelation? session.id cs).or session.correlationId }

theorem getLast?_filterMap_cons {α β : Type} (f : α → Option β) (a : α) (l : List α) :
    ((a :: l).filterMap f).getLast? = ((l.filterMap f).getLast?).or (f a) := by
  rw [List.filterMap_cons]
  cases f a with
  | none => rw [Option.or_none]
  | some b =>
    dsimp only
    rw [List.getLast?_cons]
    cases (l.filterMap f).getLast? <;> rfl

theorem reported_cons (ref : SpanRef) (c : Call) (cs : List Call) (status : Status) :
    reported ref (c :: cs) status =
      reported ref cs ((c.outcome? ref).elim status Outcome.status) := by
  unfold reported lastOutcome?
  rw [getLast?_filterMap_cons]
  cases (cs.filterMap (Call.outcome? ref)).getLast? <;> rfl

theorem reported_append (ref : SpanRef) : ∀ (cs ds : List Call) (status : Status),
    reported ref (cs ++ ds) status = reported ref ds (reported ref cs status)
  | [], _, _ => rfl
  | c :: cs, ds, status => by
    rw [List.cons_append, reported_cons, reported_cons ref c cs, reported_append ref cs ds]

theorem during_cons (session : Session) (c : Call) (cs : List Call) :
    session.during (c :: cs) = (session.during [c]).during cs := by
  unfold Session.during lastCorrelation?
  dsimp only
  rw [getLast?_filterMap_cons, getLast?_filterMap_cons]
  cases (cs.filterMap (Call.correlation? session.id)).getLast? <;> rfl

theorem during_append (session : Session) : ∀ cs ds : List Call,
    session.during (cs ++ ds) = (session.during cs).during ds
  | [], _ => rfl
  | c :: cs, ds => by
    rw [List.cons_append, during_cons, during_cons session c cs, during_append (session.during [c])]

theorem during_of_none {session : Session} {c : Call} (h : c.correlation? session.id = none) :
    session.during [c] = session := by
  unfold Session.during lastCorrelation?
  rw [getLast?_filterMap_cons, h]
  rfl

theorem during_of_some {session : Session} {c : Call} {id : String}
    (h : c.correlation? session.id = some id) :
    session.during [c] = { session with correlationId := some id } := by
  unfold Session.during lastCorrelation?
  rw [getLast?_filterMap_cons, h]
  rfl

namespace Call

variable {s : String} {c : Call}

/-- Whether a call reports a failure in a session. -/
def failsIn (s : String) : Call → Bool
  | hook (.after ref _ outcome _) => ref.sessionId = s && outcome.isFailure
  | start .. | hook _ => false

theorem outcome?_of_not_isOf {ref : SpanRef} (h : c.isOf ref.sessionId = false) :
    c.outcome? ref = none := by
  cases c with
  | start => rfl
  | hook hook =>
    cases hook with
    | after ref' m o now =>
      refine if_neg fun he => ?_
      rw [he] at h
      exact absurd h (by simp [isOf, Hook.sessionId])
    | before | finish | correlate => rfl

theorem correlation?_of_not_isOf (h : c.isOf s = false) : c.correlation? s = none := by
  cases c with
  | start => rfl
  | hook hook =>
    cases hook with
    | correlate t id => exact if_neg (of_decide_eq_false h)
    | before | finish | after => rfl

theorem failsIn_of_not_isOf (h : c.isOf s = false) : c.failsIn s = false := by
  cases c with
  | start => rfl
  | hook hook =>
    cases hook with
    | after ref m o now =>
      have : ¬ ref.sessionId = s := of_decide_eq_false h
      simp [failsIn, this]
    | before | finish | correlate => rfl

theorem failsIn_after {ref : SpanRef} {m : Snapshot} {o : Outcome} {now : Timestamp}
    (hs : ref.sessionId = s) (ho : o.isFailure = true) :
    (Call.hook (.after ref m o now)).failsIn s = true := by
  simp [failsIn, hs, ho]

theorem outcome?_of_ne {s b : String} {ref : SpanRef} {m : Snapshot} {o : Outcome} {now : Timestamp}
    (h : ref.spanId ≠ b) : (Call.hook (.after ref m o now)).outcome? ⟨s, b⟩ = none :=
  if_neg fun he => h (by rw [he])

theorem outcome?_self {s b : String} {ref : SpanRef} {m : Snapshot} {o : Outcome} {now : Timestamp}
    (hs : ref.sessionId = s) (hb : ref.spanId = b) :
    (Call.hook (.after ref m o now)).outcome? ⟨s, b⟩ = some o :=
  if_pos (by rw [← hs, ← hb])

theorem eq_of_outcome? {b : String} {hook : Hook} {o : Outcome}
    (h : (Call.hook hook).outcome? ⟨s, b⟩ = some o) : ∃ m now, hook = .after ⟨s, b⟩ m o now := by
  cases hook with
  | before | finish | correlate => cases h
  | after ref m o' now =>
    simp only [outcome?] at h
    split at h
    · rename_i href
      cases h
      exact ⟨m, now, by rw [href]⟩
    · cases h

end Call

/-! ### The session record -/

namespace Effect

variable {h : HookScope} {hook : Hook} {f f' : Folder} {spans : List Span} {s b : String}

theorem runs (he : Effect h f hook f' spans) (hid : hook.sessionId = s)
    (hends : hook.ends s = false) {session : Session} (hs : session.id = s) {failed : Bool}
    (hg : f.registration = some ⟨session, failed⟩) :
    ∃ failed', f'.registration = some ⟨session.during [.hook hook], failed'⟩ ∧
      (failed = true → failed' = true) ∧
      ((Call.hook hook).failsIn s = false → failed' = failed) := by
  have same : (Call.hook hook).correlation? session.id = none →
      f.registration = some ⟨session.during [.hook hook], failed⟩ := by
    intro hc
    rw [during_of_none hc]
    exact hg
  cases he with
  | late hb ho =>
    rw [Folder.isOpen, hg] at ho
    cases ho
  | skipped | held | heldLate | cached | cachedLate | completed | completedHeld | failedUnkept =>
    exact ⟨failed, same rfl, id, fun _ => rfl⟩
  | failedHeld ho hx hf =>
    refine ⟨true, ?_, fun _ => rfl, fun hn => ?_⟩
    rotate_left
    · exact absurd ((Call.failsIn_after hid hf).symm.trans hn) (by decide)
    rw [during_of_none rfl]
    exact congrArg (Option.map _) hg
  | failedLost ho hx hf =>
    refine ⟨true, ?_, fun _ => rfl, fun hn => ?_⟩
    rotate_left
    · exact absurd ((Call.failsIn_after hid hf).symm.trans hn) (by decide)
    have hprom : f.fail.promoted.registration = f.fail.registration := by
      unfold Folder.promoted
      split <;> rfl
    rw [during_of_none rfl, hprom]
    exact congrArg (Option.map _) hg
  | finished => exact absurd ((decide_eq_true hid).symm.trans hends) (by decide)
  | @correlated t c ho =>
    refine ⟨failed, ?_, id, fun _ => rfl⟩
    have hc : (Call.hook (.correlate t c)).correlation? session.id = some c := by
      rw [hs]
      exact if_pos hid
    rw [during_of_some hc]
    exact congrArg (Option.map _) hg

end Effect

namespace Registry

variable {policy : Policy} {sample : UInt64 → Bool} {r : Registry} {s : String}

/-- The session is going on in the registry. -/
def Runs (r : Registry) (session : Session) (failed : Bool) : Prop :=
  (r.folder session.id).registration = some ⟨session, failed⟩

theorem Runs.isOpen {session : Session} {failed : Bool} (h : r.Runs session failed) :
    (r.folder session.id).isOpen = true := by
  rw [Folder.isOpen, h]
  rfl

theorem runs_call (hr : r.Sound) {c : Call} (hf : ∀ t, c.started? = some t → r.isRegistered t = false)
    {session : Session} {failed : Bool} (h : r.Runs session failed)
    (hends : c.ends session.id = false) :
    ∃ failed', (r.call policy sample c).1.Runs (session.during [c]) failed' ∧
      (failed = true → failed' = true) ∧ (c.failsIn session.id = false → failed' = failed) := by
  rcases call_cases hr (hf _) h.isOpen with ⟨hof, hsame⟩ | ⟨hook, h', g, rfl, hid, -, -, -, heff⟩
  · refine ⟨failed, ?_, id, fun _ => rfl⟩
    rw [during_of_none (Call.correlation?_of_not_isOf hof), Runs, hsame]
    exact h
  · exact heff.runs hid hends rfl h

theorem runs_calls (cs : List Call) (hr : r.Sound) (hfresh : Fresh policy sample r cs)
    {session : Session} {failed : Bool} (h : r.Runs session failed)
    (hends : ∀ c ∈ cs, c.ends session.id = false) :
    ∃ failed', (r.calls policy sample cs).Runs (session.during cs) failed' ∧
      (failed = true → failed' = true) ∧
      ((∀ c ∈ cs, c.failsIn session.id = false) → failed' = failed) := by
  induction cs generalizing r session failed with
  | nil => exact ⟨failed, h, id, fun _ => rfl⟩
  | cons c cs ih =>
    obtain ⟨failed₁, h₁, hup₁, hsame₁⟩ := runs_call hr hfresh.1 h (hends c List.mem_cons_self)
    obtain ⟨failed₂, h₂, hup₂, hsame₂⟩ := ih (sound_call hr c) hfresh.2 h₁
      fun d hd => hends d (List.mem_cons_of_mem _ hd)
    refine ⟨failed₂, ?_, hup₂ ∘ hup₁, fun hn => ?_⟩
    · rw [during_cons]
      exact h₂
    · exact (hsame₂ fun d hd => hn d (List.mem_cons_of_mem _ hd)).trans
        (hsame₁ (hn c List.mem_cons_self))

end Registry

/-! ### Cached spans -/

/-- The span `x` is cached as `b`, and none is held as `b`. -/
structure Folder.Caches (f : Folder) (b : String) (x : Span) : Prop where
  span : f.get? b = some x
  slot : ∀ y, f.slot = some y → y.id ≠ b

/-- The span `b` is cached with a status, and not held. -/
structure Folder.CachedAs (f : Folder) (b : String) (status : Status) : Prop where
  span : ∃ x, f.get? b = some x ∧ x.status = status
  slot : ∀ y, f.slot = some y → y.id ≠ b

theorem Folder.Caches.cachedAs {f : Folder} {b : String} {x : Span} (h : f.Caches b x) :
    f.CachedAs b x.status := ⟨⟨x, h.span, rfl⟩, h.slot⟩

theorem Folder.CachedAs.exists_caches {f : Folder} {b : String} {status : Status}
    (h : f.CachedAs b status) : ∃ x, f.Caches b x ∧ x.status = status := by
  obtain ⟨x, hx, hst⟩ := h.span
  exact ⟨x, ⟨hx, h.slot⟩, hst⟩

theorem Folder.Caches.promoted {f : Folder} {b : String} {x : Span} (h : f.Caches b x) :
    f.promoted.Caches b x := by
  obtain ⟨hx, hslot⟩ := h
  unfold Folder.promoted
  cases hs : f.slot with
  | none => exact ⟨hx, hslot⟩
  | some y =>
    refine ⟨?_, fun _ hn => by cases hn⟩
    rw [get?_cache, if_neg (Ne.symm (hslot y hs))]
    exact hx

namespace Effect

variable {h : HookScope} {hook : Hook} {f f' : Folder} {spans : List Span} {s b : String}
  {status : Status} {x : Span}

theorem caches (he : Effect h f hook f' spans) (hid : hook.sessionId = s)
    (hends : hook.ends s = false) (ho : f.isOpen = true)
    (hopen : ∀ ref, hook.opened? = some ref → ref.spanId ≠ b)
    (hquiet : (Call.hook hook).outcome? ⟨s, b⟩ = none) (hf : f.Caches b x) : f'.Caches b x := by
  obtain ⟨hx, hslot⟩ := hf
  cases he with
  | late hb hc => exact absurd (ho.symm.trans hc) (by decide)
  | skipped | heldLate | cachedLate | correlated | failedUnkept => exact ⟨hx, hslot⟩
  | held ht ho =>
    refine ⟨hx, fun y hy => ?_⟩
    cases hy
    exact hopen _ rfl
  | @cached t b' e p m now ht ho =>
    refine ⟨?_, hslot⟩
    have hne : b ≠ (h.spanIn f t b' e p m now).id := fun hb => hopen ⟨t, b'⟩ rfl hb.symm
    rw [Folder.get?_cache, if_neg hne]
    exact hx
  | @completed ref m o now y ho hy =>
    have hne : b ≠ ref.spanId := by
      intro hb
      rw [Call.outcome?_self hid hb.symm] at hquiet
      cases hquiet
    refine ⟨?_, hslot⟩
    rw [Folder.get?_update, if_neg hne]
    exact hx
  | completedHeld ho hnone hf =>
    refine ⟨hx, fun y hy => ?_⟩
    obtain ⟨z, hz, rfl⟩ := Option.map_eq_some_iff.1 hy
    split <;> exact hslot z hz
  | @failedHeld ref m o now y ho hnone hf hs hy =>
    refine ⟨?_, fun _ hn => by cases hn⟩
    have hyb : b ≠ (h.completed m o now y).id := fun hb => hslot y hs hb.symm
    rw [Folder.get?_cache, if_neg hyb]
    exact hx
  | failedLost ho hnone hf hs hl => exact Folder.Caches.promoted (f := f.fail) ⟨hx, hslot⟩
  | finished => exact absurd ((decide_eq_true hid).symm.trans hends) (by decide)

theorem cachedAs (he : Effect h f hook f' spans) (hid : hook.sessionId = s)
    (hends : hook.ends s = false) (ho : f.isOpen = true)
    (hopen : ∀ ref, hook.opened? = some ref → ref.spanId ≠ b) (hf : f.CachedAs b status) :
    f'.CachedAs b (((Call.hook hook).outcome? ⟨s, b⟩).elim status Outcome.status) := by
  obtain ⟨x, hx, rfl⟩ := hf.exists_caches
  cases hout : (Call.hook hook).outcome? ⟨s, b⟩ with
  | none => exact (he.caches hid hends ho hopen hout hx).cachedAs
  | some o =>
    obtain ⟨m, now, rfl⟩ := Call.eq_of_outcome? hout
    cases he with
    | late hb hc => exact absurd (ho.symm.trans hc) (by decide)
    | completed ho hy =>
      refine ⟨⟨h.completed m o now x, ?_, rfl⟩, hx.slot⟩
      rw [Folder.get?_update, if_pos rfl, hx.span]
      rfl
    | completedHeld _ hnone | failedHeld _ hnone | failedLost _ hnone | failedUnkept _ hnone =>
      exact absurd (hnone.symm.trans hx.span) nofun

end Effect

namespace Registry

variable {policy : Policy} {sample : UInt64 → Bool} {r : Registry} {ref : SpanRef} {status : Status}
  {x : Span}

/-- The span `x` is cached, in its session only. -/
structure Caches (r : Registry) (ref : SpanRef) (x : Span) : Prop where
  confined : r.Confines ref.spanId ref.sessionId
  folder : (r.folder ref.sessionId).Caches ref.spanId x

/-- A span is cached with a status, in its session only. -/
structure CachedAs (r : Registry) (ref : SpanRef) (status : Status) : Prop where
  confined : r.Confines ref.spanId ref.sessionId
  folder : (r.folder ref.sessionId).CachedAs ref.spanId status

theorem CachedAs.exists_caches (h : r.CachedAs ref status) :
    ∃ x, r.Caches ref x ∧ x.status = status := by
  obtain ⟨x, hx, hst⟩ := h.folder.exists_caches
  exact ⟨x, ⟨h.confined, hx⟩, hst⟩

theorem Caches.isOpen (hr : r.Sound) (h : r.Caches ref x) :
    (r.folder ref.sessionId).isOpen = true := by
  have hx := h.folder.span
  cases ho : (r.folder ref.sessionId).isOpen with
  | true => rfl
  | false =>
    rw [(hr.folder _).closed ho] at hx
    cases hx

theorem CachedAs.isOpen (hr : r.Sound) (h : r.CachedAs ref status) :
    (r.folder ref.sessionId).isOpen = true := by
  obtain ⟨x, hx, -⟩ := h.exists_caches
  exact hx.isOpen hr

theorem caches_call (hr : r.Sound) {c : Call}
    (hf : ∀ t, c.started? = some t → r.isRegistered t = false) (h : r.Caches ref x)
    (hends : c.ends ref.sessionId = false)
    (hopen : ∀ ref', c.opened? = some ref' → ref'.spanId ≠ ref.spanId)
    (hquiet : c.outcome? ref = none) : (r.call policy sample c).1.Caches ref x := by
  refine ⟨(confines_call hr h.confined fun ref' h' hb => absurd hb (hopen ref' h')).1, ?_⟩
  rcases call_cases hr (hf _) (h.isOpen hr) with ⟨-, hsame⟩ | ⟨hook, h', g, rfl, hid, -, -, -, heff⟩
  · rw [hsame]
    exact h.folder
  · exact heff.caches hid hends (h.isOpen hr) hopen hquiet h.folder

/-- **A cached span** is left alone until its end is reported or its session ends. -/
theorem caches_calls (cs : List Call) (hr : r.Sound) (hfresh : Fresh policy sample r cs)
    (h : r.Caches ref x) (hends : ∀ c ∈ cs, c.ends ref.sessionId = false)
    (hopen : ∀ c ∈ cs, ∀ ref', c.opened? = some ref' → ref'.spanId ≠ ref.spanId)
    (hquiet : ∀ c ∈ cs, c.outcome? ref = none) : (r.calls policy sample cs).Caches ref x := by
  induction cs generalizing r with
  | nil => exact h
  | cons c cs ih =>
    exact ih (sound_call hr c) hfresh.2
      (caches_call hr hfresh.1 h (hends c List.mem_cons_self) (hopen c List.mem_cons_self)
        (hquiet c List.mem_cons_self))
      (fun d hd => hends d (List.mem_cons_of_mem _ hd))
      (fun d hd => hopen d (List.mem_cons_of_mem _ hd))
      fun d hd => hquiet d (List.mem_cons_of_mem _ hd)

theorem cachedAs_call (hr : r.Sound) {c : Call}
    (hf : ∀ t, c.started? = some t → r.isRegistered t = false) (h : r.CachedAs ref status)
    (hends : c.ends ref.sessionId = false)
    (hopen : ∀ ref', c.opened? = some ref' → ref'.spanId ≠ ref.spanId) :
    (r.call policy sample c).1.CachedAs ref ((c.outcome? ref).elim status Outcome.status) := by
  refine ⟨(confines_call hr h.confined fun ref' h' hb => absurd hb (hopen ref' h')).1, ?_⟩
  rcases call_cases hr (hf _) (h.isOpen hr) with ⟨hof, hsame⟩ | ⟨hook, h', g, rfl, hid, -, -, -, heff⟩
  · rw [Call.outcome?_of_not_isOf hof, hsame]
    exact h.folder
  · exact heff.cachedAs hid hends (h.isOpen hr) hopen h.folder

/-- **A cached span** stays cached until its session ends, with the status last reported for it. -/
theorem cachedAs_calls (cs : List Call) (hr : r.Sound) (hfresh : Fresh policy sample r cs)
    (h : r.CachedAs ref status) (hends : ∀ c ∈ cs, c.ends ref.sessionId = false)
    (hopen : ∀ c ∈ cs, ∀ ref', c.opened? = some ref' → ref'.spanId ≠ ref.spanId) :
    (r.calls policy sample cs).CachedAs ref (reported ref cs status) := by
  induction cs generalizing r status with
  | nil => exact h
  | cons c cs ih =>
    rw [reported_cons]
    exact ih (sound_call hr c) hfresh.2
      (cachedAs_call hr hfresh.1 h (hends c List.mem_cons_self) (hopen c List.mem_cons_self))
      (fun d hd => hends d (List.mem_cons_of_mem _ hd))
      fun d hd => hopen d (List.mem_cons_of_mem _ hd)

/-! ### Opening a span -/

section Open

variable (policy) (sample) {session : Session} {failed : Bool} {b : String}

theorem open_cases (hr : r.Sound) (h : r.Runs session failed) (b : String) (e : Element)
    (p : Option ParentHint) (m : Snapshot) (now : Timestamp) :
    ∃ h' : HookScope, h'.tracking = .of session.level session.sampled failed ∧
      Effect h' (r.folder session.id) (.before session.id b e p m now)
        ((r.call policy sample (.hook (.before session.id b e p m now))).1.folder session.id)
        (r.call policy sample (.hook (.before session.id b e p m now))).2 := by
  rcases call_cases (s := session.id) hr (c := .hook (.before session.id b e p m now)) nofun
    h.isOpen with
    ⟨hof, -⟩ | ⟨hook, h', g, hc, -, hg, hs, hf, heff⟩
  · exact absurd (decide_eq_false_iff_not.1 hof) (fun hn => hn rfl)
  · cases hc
    have hsome : some g = some ⟨session, failed⟩ := hg.symm.trans h
    cases hsome
    exact ⟨h', by rw [HookScope.tracking, hs, hf], heff⟩

theorem confines_open (hr : r.Sound) (hl : r.Lacks b) (s : String) (e : Element)
    (p : Option ParentHint) (m : Snapshot) (now : Timestamp) :
    (r.call policy sample (.hook (.before s b e p m now))).1.Confines b s := by
  refine (confines_call hr (hl.confines s) fun ref' ho _ => ?_).1
  cases ho
  rfl

theorem cachedAs_open (hr : r.Sound) (h : r.Runs session failed)
    (ht : Tracking.of session.level session.sampled failed = .full) (hl : r.Lacks b) (e : Element)
    (p : Option ParentHint) (m : Snapshot) (now : Timestamp) :
    (r.call policy sample (.hook (.before session.id b e p m now))).1.CachedAs ⟨session.id, b⟩
      .inProgress := by
  obtain ⟨h', htrack, heff⟩ := open_cases policy sample hr h b e p m now
  refine ⟨confines_open policy sample hr hl session.id e p m now, ?_⟩
  generalize (r.call policy sample (.hook (.before session.id b e p m now))).1.folder session.id = f'
    at heff ⊢
  generalize (r.call policy sample (.hook (.before session.id b e p m now))).2 = spans at heff
  rw [ht] at htrack
  cases heff with
  | late hb => cases hb
  | skipped hn | held hn | heldLate hn => exact absurd (htrack.symm.trans hn) (by decide)
  | cachedLate _ hc => exact absurd (h.isOpen.symm.trans hc) (by decide)
  | cached =>
    refine ⟨⟨h'.spanIn (r.folder session.id) session.id b e p m now, ?_, rfl⟩, fun y hy => ?_⟩
    · exact (Folder.get?_cache _ _ _).trans (if_pos rfl)
    · exact hl session.id y (Folder.mem_kept.2 (Or.inl hy))

theorem lacks_open (hr : r.Sound) (h : r.Runs session failed)
    (ht : Tracking.of session.level session.sampled failed = .skip) (hl : r.Lacks b) (e : Element)
    (p : Option ParentHint) (m : Snapshot) (now : Timestamp) :
    (r.call policy sample (.hook (.before session.id b e p m now))).1.Lacks b ∧
      (r.call policy sample (.hook (.before session.id b e p m now))).2 = [] := by
  obtain ⟨h', htrack, heff⟩ := open_cases policy sample hr h b e p m now
  have hconf := confines_open policy sample hr hl session.id e p m now
  rw [ht] at htrack
  have hboth : (r.call policy sample (.hook (.before session.id b e p m now))).1.folder session.id =
      r.folder session.id ∧
      (r.call policy sample (.hook (.before session.id b e p m now))).2 = [] := by
    generalize (r.call policy sample (.hook (.before session.id b e p m now))).1.folder session.id =
      f' at heff ⊢
    generalize (r.call policy sample (.hook (.before session.id b e p m now))).2 = spans at heff ⊢
    cases heff with
    | late hb => cases hb
    | skipped => exact ⟨rfl, rfl⟩
    | held hn | heldLate hn | cached hn | cachedLate hn =>
      exact absurd (htrack.symm.trans hn) (by decide)
  refine ⟨fun t x hx => ?_, hboth.2⟩
  by_cases hs : t = session.id
  · rw [hs, hboth.1] at hx
    exact hl _ x hx
  · exact hconf t hs x hx

end Open

end Registry

/-! ### The end of a session -/

/-- The status of a span when its session has ended. -/
def Status.settled (status : Status) : Status :=
  if status = .inProgress then .cancelledOrUnknown else status

theorem settled_reported (ref : SpanRef) (cs : List Call) :
    (reported ref cs .inProgress).settled = reported ref cs .cancelledOrUnknown := by
  unfold reported
  cases lastOutcome? ref cs with
  | none => rfl
  | some outcome => cases outcome <;> rfl

/-- A span in its final form. -/
structure Span.Final (x : Span) (ref : SpanRef) (status : Status) (stamp : Stamp) : Prop where
  id : x.id = ref.spanId
  sessionId : x.sessionId = ref.sessionId
  status : x.status = status
  stamp : x.stamp = stamp

theorem Span.final_finalize (x : Span) (stamp : Stamp) :
    (x.finalize stamp).Final ⟨x.sessionId, x.id⟩ x.status.settled stamp := by
  refine ⟨id_finalize x stamp, sessionId_finalize x stamp, ?_, ?_⟩
  · unfold finalize abandon isInProgress Status.settled
    by_cases h : x.status = .inProgress
    · simp [stampWith, h]
    · simp [stampWith, h]
  · unfold finalize abandon
    split <;> rfl

theorem Folder.Sound.promoted {f : Folder} {s : String} (h : f.Sound s) : f.promoted.Sound s where
  closed ho := by
    rw [isOpen_promoted] at ho
    rw [h.closed ho]
    rfl
  keyed := keyed_promoted h.keyed
  own x hx := h.own x (mem_kept_promoted hx)

theorem Folder.Sound.ended {f : Folder} {s : String} (hf : f.Sound s) (h : HookScope)
    (status : Status) : (h.ended f status).Sound s := by
  unfold HookScope.ended
  split
  · exact hf.promoted
  · exact hf

theorem Folder.Caches.finalized {f : Folder} {s b : String} {x : Span} (h : f.Caches b x)
    (hf : f.Sound s) (stamp : Stamp) :
    lastVersion? b (f.cached.map (·.finalize stamp)) = some (x.finalize stamp) := by
  obtain rfl := hf.id_of_get? h.span
  have hids : ((f.cached.map (·.finalize stamp)).map Span.id).Nodup := by
    rw [List.map_map]
    have : Span.id ∘ (·.finalize stamp) = Span.id := funext fun y => y.id_finalize stamp
    rw [this]
    exact nodup_cached hf.keyed
  have hlast := lastVersion?_of_mem hids (List.mem_map_of_mem (mem_cached_of_get? h.span))
  rwa [Span.id_finalize] at hlast

theorem Folder.Caches.final {f : Folder} {s b : String} {x : Span} (h : f.Caches b x)
    (hf : f.Sound s) (stamp : Stamp) : (x.finalize stamp).Final ⟨s, b⟩ x.status.settled stamp := by
  have hfinal := x.final_finalize stamp
  rwa [hf.own x (mem_kept.2 (Or.inr (mem_cached_of_get? h.span))), hf.id_of_get? h.span] at hfinal

theorem Folder.CachedAs.finalized {f : Folder} {s b : String} {status : Status}
    (h : f.CachedAs b status) (hf : f.Sound s) (stamp : Stamp) :
    ∃ x, lastVersion? b (f.cached.map (·.finalize stamp)) = some x ∧
      x.Final ⟨s, b⟩ status.settled stamp := by
  obtain ⟨x, hx, rfl⟩ := h.exists_caches
  exact ⟨_, hx.finalized hf stamp, hx.final hf stamp⟩

namespace Registry

section Finish

variable (policy : Policy) (sample : UInt64 → Bool) {r : Registry} {session : Session}
  {failed : Bool} {b : String} {st : Status} {x : Span}

theorem finish_cases (hr : r.Sound) (h : r.Runs session failed) (status : Status) (time : Timestamp)
    (ms : UInt64) :
    ∃ h' : HookScope, h'.session = session ∧ h'.failureSeen = failed ∧
      (r.call policy sample (.hook (.finish session.id status time ms))).2 =
        (h'.ended (r.folder session.id) status).cached.map
          (·.finalize (session.finish status time ms).stamp) ∧
      (r.call policy sample (.hook (.finish session.id status time ms))).1.folder session.id =
        .closed := by
  rcases call_cases (s := session.id) hr (c := .hook (.finish session.id status time ms)) nofun
    h.isOpen with ⟨hof, -⟩ | ⟨hook, h', g, hc, -, hg, hs, hf, heff⟩
  · exact absurd (decide_eq_false_iff_not.1 hof) (fun hn => hn rfl)
  · cases hc
    have hsome : some g = some ⟨session, failed⟩ := hg.symm.trans h
    cases hsome
    generalize (r.call policy sample (.hook (.finish session.id status time ms))).1.folder
      session.id = f' at heff ⊢
    generalize (r.call policy sample (.hook (.finish session.id status time ms))).2 = spans
      at heff ⊢
    cases heff with
    | late _ hc => exact absurd (h.isOpen.symm.trans hc) (by decide)
    | finished =>
      dsimp only at hs
      exact ⟨h', hs, hf, by rw [hs], rfl⟩

theorem lacks_finish (hr : r.Sound) (h : r.Runs session failed) (hb : r.Confines b session.id)
    (status : Status) (time : Timestamp) (ms : UInt64) :
    (r.call policy sample (.hook (.finish session.id status time ms))).1.Lacks b := by
  obtain ⟨-, -, -, -, hclosed⟩ := finish_cases policy sample hr h status time ms
  intro t x hx
  by_cases hs : t = session.id
  · rw [hs, hclosed] at hx
    exact absurd hx List.not_mem_nil
  · exact (confines_call hr hb fun ref ho => by cases ho).1 t hs x hx

/-- **A span that is cached at the end of its session** is handed over in its final form. -/
theorem finish_caches (hr : r.Sound) (h : r.Runs session failed)
    (hb : r.Caches ⟨session.id, b⟩ x) (status : Status) (time : Timestamp) (ms : UInt64) :
    lastVersion? b (r.call policy sample (.hook (.finish session.id status time ms))).2 =
      some (x.finalize (session.finish status time ms).stamp) := by
  obtain ⟨h', -, -, hspans, -⟩ := finish_cases policy sample hr h status time ms
  rw [hspans]
  refine Folder.Caches.finalized ?_ ((hr.folder _).ended h' status) _
  unfold HookScope.ended
  split
  · exact hb.folder.promoted
  · exact hb.folder

theorem lastVersion?_of_lacks (hr : r.Sound) (h : r.Lacks b) (cs : List Call)
    (hopen : ∀ c ∈ cs, ∀ ref, c.opened? = some ref → ref.spanId ≠ b) :
    lastVersion? b (r.handed policy sample cs) = none :=
  lastVersion?_eq_none.2 (lacks_calls cs hr h hopen).2

/-- **The last version of a span that is cached when its session ends**, whatever is called after. -/
theorem lastVersion?_of_caches (hr : r.Sound) (h : r.Runs session failed) {mid post : List Call}
    {status : Status} {time : Timestamp} {ms : UInt64}
    (hfresh : Fresh policy sample r (mid ++ .hook (.finish session.id status time ms) :: post))
    (hends : ∀ c ∈ mid, c.ends session.id = false)
    (hopen : ∀ c ∈ post, ∀ ref, c.opened? = some ref → ref.spanId ≠ b)
    (hb : (r.calls policy sample mid).Caches ⟨session.id, b⟩ x) :
    lastVersion? b (r.handed policy sample
        (mid ++ .hook (.finish session.id status time ms) :: post)) =
      some (x.finalize ((session.during mid).finish status time ms).stamp) := by
  have hr' : (r.calls policy sample mid).Sound := sound_calls mid hr
  obtain ⟨failed', h', -⟩ := runs_calls mid hr (fresh_append _ _ hfresh).1 h hends
  have hx : lastVersion? b ((r.calls policy sample mid).call policy sample
      (.hook (.finish session.id status time ms))).2 = some _ :=
    finish_caches policy sample hr' h' hb status time ms
  have hl := lacks_finish policy sample hr' h' hb.confined status time ms
  have hnone : lastVersion? b (((r.calls policy sample mid).call policy sample
      (.hook (.finish session.id status time ms))).1.handed policy sample post) = none :=
    lastVersion?_of_lacks policy sample (sound_call hr' _) hl post hopen
  rw [handed_append, handed, lastVersion?_append, lastVersion?_append, hx, hnone]
  rfl

/-- **The last version of a cached span**, whatever is called until its session ends and after. -/
theorem lastVersion?_of_cached (hr : r.Sound) (h : r.Runs session failed)
    (hb : r.CachedAs ⟨session.id, b⟩ st) {mid post : List Call} {status : Status} {time : Timestamp}
    {ms : UInt64}
    (hfresh : Fresh policy sample r (mid ++ .hook (.finish session.id status time ms) :: post))
    (hends : ∀ c ∈ mid, c.ends session.id = false)
    (hopen : ∀ c ∈ mid ++ post, ∀ ref, c.opened? = some ref → ref.spanId ≠ b) :
    ∃ x, lastVersion? b (r.handed policy sample
        (mid ++ .hook (.finish session.id status time ms) :: post)) = some x ∧
      x.Final ⟨session.id, b⟩ (reported ⟨session.id, b⟩ mid st).settled
        ((session.during mid).finish status time ms).stamp := by
  have hb' := cachedAs_calls mid hr (fresh_append _ _ hfresh).1 hb hends
    fun c hc => hopen c (List.mem_append_left _ hc)
  obtain ⟨x, hx, hst⟩ := hb'.exists_caches
  have hlast := lastVersion?_of_caches policy sample hr h hfresh hends
    (fun c hc => hopen c (List.mem_append_right _ hc)) hx
  have hfinal := hx.folder.final ((sound_calls mid hr).folder _)
    ((session.during mid).finish status time ms).stamp
  rw [hst] at hfinal
  exact ⟨_, hlast, hfinal⟩

end Finish

end Registry

end SpanRelay

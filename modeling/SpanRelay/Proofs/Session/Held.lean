import SpanRelay.Proofs.Session.Cached

/-! # Held spans

As long as a session at the level ERROR has not failed, it is `Unfailed`: nothing of it is cached or
handed over (`unfailed_call`), and of its spans only the latest is held. A span that is held stays
so with the status last reported for it (`heldAs_calls`) until another is opened, which replaces it
(`lacks_open_other`), or the session fails: then it is cached (`fails_call`), or handed over if it
is the end that fails (`finish_heldAs`). -/

namespace SpanRelay

namespace Call

/-- Whether a call opens a span in a session. -/
def opensIn (s : String) (c : Call) : Bool := c.opened?.any fun ref => ref.sessionId = s

theorem opensIn_iff {s : String} {c : Call} :
    c.opensIn s = true ↔ ∃ b, c.opened? = some ⟨s, b⟩ := by
  unfold opensIn
  rw [Option.any_eq_true]
  constructor
  · rintro ⟨ref, ho, hs⟩
    exact ⟨ref.spanId, of_decide_eq_true hs ▸ ho⟩
  · rintro ⟨b, ho⟩
    exact ⟨_, ho, decide_eq_true rfl⟩

theorem opensIn_of_not_isOf {s : String} {c : Call} (h : c.isOf s = false) : c.opensIn s = false := by
  rw [Bool.eq_false_iff]
  intro hopens
  obtain ⟨b, hb⟩ := opensIn_iff.1 hopens
  cases c with
  | start => cases hb
  | hook hook => exact of_decide_eq_false h (Hook.sessionId_of_opened? hb)

end Call

/-- The span `b` is held with a status. -/
def Folder.HeldAs (f : Folder) (b : String) (status : Status) : Prop :=
  ∃ x, f.slot = some x ∧ x.id = b ∧ x.status = status

theorem Folder.get?_of_bare {f : Folder} (h : f.spans = none) (id : String) : f.get? id = none := by
  unfold get?
  rw [h]
  rfl

theorem Folder.HeldAs.promoted {f : Folder} {b : String} {status : Status} (h : f.HeldAs b status) :
    f.promoted.CachedAs b status := by
  obtain ⟨x, hx, rfl, hst⟩ := h
  unfold Folder.promoted
  rw [hx]
  exact ⟨⟨x, (get?_cache _ _ _).trans (if_pos rfl), hst⟩, fun _ hn => by cases hn⟩

namespace Effect

variable {h : HookScope} {hook : Hook} {f f' : Folder} {spans : List Span} {s b : String}
  {status : Status}

/-- What is not fully tracked is not cached and not handed over, unless it fails. -/
theorem unfailed (he : Effect h f hook f' spans) (hid : hook.sessionId = s)
    (hends : hook.ends s = false) (hfails : (Call.hook hook).failsIn s = false)
    (ht : h.tracking = .lastOnly) (hb : f.spans = none) : f'.spans = none ∧ spans = [] := by
  cases he with
  | late | skipped | held | heldLate | completedHeld | failedUnkept | correlated => exact ⟨hb, rfl⟩
  | cached hn | cachedLate hn => exact absurd (ht.symm.trans hn) (by decide)
  | completed ho hx =>
    rw [Folder.get?_of_bare hb] at hx
    cases hx
  | failedHeld _ _ hf | failedLost _ _ hf =>
    exact absurd ((Call.failsIn_after hid hf).symm.trans hfails) (by decide)
  | finished => exact absurd ((decide_eq_true hid).symm.trans hends) (by decide)

theorem heldAs (he : Effect h f hook f' spans) (hid : hook.sessionId = s)
    (hends : hook.ends s = false) (hfails : (Call.hook hook).failsIn s = false)
    (hopen : hook.opened? = none) (ho : f.isOpen = true) (hb : f.spans = none)
    (hf : f.HeldAs b status) :
    f'.HeldAs b (((Call.hook hook).outcome? ⟨s, b⟩).elim status Outcome.status) := by
  obtain ⟨x, hx, rfl, hst⟩ := hf
  cases he with
  | late _ hc => exact absurd (ho.symm.trans hc) (by decide)
  | skipped | held | heldLate | cached | cachedLate => cases hopen
  | correlated => exact ⟨x, hx, rfl, hst⟩
  | completed ho hy =>
    rw [Folder.get?_of_bare hb] at hy
    cases hy
  | @completedHeld ref m o now ho hnone hf =>
    have hslot : (f.updateHeld ref.spanId (h.completed m o now)).slot =
        some (if x.id = ref.spanId then h.completed m o now x else x) := by
      rw [Folder.updateHeld, hx]
      rfl
    by_cases hb : ref.spanId = x.id
    · rw [Call.outcome?_self hid hb]
      rw [if_pos hb.symm] at hslot
      exact ⟨h.completed m o now x, hslot, rfl, rfl⟩
    · rw [Call.outcome?_of_ne hb]
      rw [if_neg (Ne.symm hb)] at hslot
      exact ⟨x, hslot, rfl, hst⟩
  | failedHeld _ _ hf | failedLost _ _ hf | failedUnkept _ _ hf =>
    exact absurd ((Call.failsIn_after hid hf).symm.trans hfails) (by decide)
  | finished => exact absurd ((decide_eq_true hid).symm.trans hends) (by decide)

/-- **The first failure** switches the session to full tracking and moves the held span to the
cached ones. -/
theorem fails (he : Effect h f hook f' spans) (hid : hook.sessionId = s)
    (hfails : (Call.hook hook).failsIn s = true) (hl : h.session.level = .error)
    (ho : f.isOpen = true) (hb : f.spans = none) :
    f'.registration = f.registration.map (fun g => { g with failureSeen := true }) ∧
      ∀ b status, f.HeldAs b status →
        f'.CachedAs b (((Call.hook hook).outcome? ⟨s, b⟩).elim status Outcome.status) := by
  cases he with
  | late _ hc => exact absurd (ho.symm.trans hc) (by decide)
  | skipped | held | heldLate | cached | cachedLate | finished | correlated => cases hfails
  | completed _ hy =>
    rw [Folder.get?_of_bare hb] at hy
    cases hy
  | @completedHeld ref m o now _ _ hf =>
    have hboth : (decide (ref.sessionId = s) && o.isFailure) = true := hfails
    rw [hf, Bool.and_false] at hboth
    cases hboth
  | @failedHeld ref m o now x _ _ hf hx hxid =>
    refine ⟨rfl, ?_⟩
    rintro b status ⟨y, hy, rfl, hst⟩
    rw [hx] at hy
    cases hy
    rw [Call.outcome?_self hid hxid.symm]
    exact ⟨⟨h.completed m o now x, (Folder.get?_cache _ _ _).trans (if_pos rfl), rfl⟩,
      fun _ hn => by cases hn⟩
  | @failedLost ref m o now _ _ hf hs hl' =>
    refine ⟨?_, ?_⟩
    · unfold Folder.promoted
      split <;> rfl
    · rintro b status ⟨y, hy, rfl, hst⟩
      rw [Call.outcome?_of_ne (hs y hy).symm]
      exact Folder.HeldAs.promoted (f := f.fail) ⟨y, hy, rfl, hst⟩
  | failedUnkept _ _ _ _ hn => exact absurd hl hn

end Effect

namespace Registry

variable {policy : Policy} {sample : UInt64 → Bool} {r : Registry} {session : Session} {b : String}
  {status : Status} {c : Call}

/-- The session is going on, has not failed, and has no span cached. -/
structure Unfailed (r : Registry) (session : Session) : Prop where
  runs : r.Runs session false
  bare : (r.folder session.id).spans = none

/-- A span is held with a status, in its session only. -/
structure HeldAs (r : Registry) (ref : SpanRef) (status : Status) : Prop where
  confined : r.Confines ref.spanId ref.sessionId
  folder : (r.folder ref.sessionId).HeldAs ref.spanId status

theorem Runs.cases {failed : Bool} (h : r.Runs session failed) (policy : Policy)
    (sample : UInt64 → Bool) (hr : r.Sound)
    (hf : ∀ t, c.started? = some t → r.isRegistered t = false) :
    (c.isOf session.id = false ∧
      (r.call policy sample c).1.folder session.id = r.folder session.id) ∨
    ∃ hook h, c = .hook hook ∧ hook.sessionId = session.id ∧ h.session = session ∧
      h.tracking = .of session.level session.sampled failed ∧
      Effect h (r.folder session.id) hook ((r.call policy sample c).1.folder session.id)
        (r.call policy sample c).2 := by
  rcases call_cases hr (hf _) h.isOpen with hsame | ⟨hook, h', g, hc, hid, hg, hs, hflag, heff⟩
  · exact Or.inl hsame
  · obtain rfl : g = ⟨session, failed⟩ := Option.some.inj (hg.symm.trans h)
    refine Or.inr ⟨hook, h', hc, hid, hs, ?_, heff⟩
    rw [HookScope.tracking, hs, hflag]

theorem Unfailed.cases (hu : r.Unfailed session) (hl : session.level = .error) (policy : Policy)
    (sample : UInt64 → Bool) (hr : r.Sound)
    (hf : ∀ t, c.started? = some t → r.isRegistered t = false) :
    (c.isOf session.id = false ∧
      (r.call policy sample c).1.folder session.id = r.folder session.id) ∨
    ∃ hook h, c = .hook hook ∧ hook.sessionId = session.id ∧ h.tracking = .lastOnly ∧
      h.session.level = .error ∧
      Effect h (r.folder session.id) hook ((r.call policy sample c).1.folder session.id)
        (r.call policy sample c).2 := by
  rcases hu.runs.cases policy sample hr hf with hsame | ⟨hook, h, hc, hid, hs, ht, heff⟩
  · exact Or.inl hsame
  · rw [hl] at ht
    exact Or.inr ⟨hook, h, hc, hid, ht, by rw [hs, hl], heff⟩

theorem unfailed_call (hr : r.Sound) (hf : ∀ t, c.started? = some t → r.isRegistered t = false)
    (hu : r.Unfailed session) (hl : session.level = .error) (hends : c.ends session.id = false)
    (hfails : c.failsIn session.id = false) :
    (r.call policy sample c).1.Unfailed (session.during [c]) ∧
      (c.isOf session.id = true → (r.call policy sample c).2 = []) := by
  have hruns : (r.call policy sample c).1.Runs (session.during [c]) false := by
    obtain ⟨failed, hruns, -, hsame⟩ := runs_call hr hf hu.runs hends
    exact hsame hfails ▸ hruns
  have hid : (session.during [c]).id = session.id := rfl
  rcases hu.cases hl policy sample hr hf with ⟨hof, hfolder⟩ | ⟨hook, h, rfl, hs, ht, -, heff⟩
  · refine ⟨⟨hruns, ?_⟩, fun hn => absurd (hof.symm.trans hn) (by decide)⟩
    rw [hid, hfolder]
    exact hu.bare
  · obtain ⟨hbare, hnil⟩ := heff.unfailed hs hends hfails ht hu.bare
    exact ⟨⟨hruns, hbare⟩, fun _ => hnil⟩

theorem unfailed_calls (cs : List Call) (hr : r.Sound) (hfresh : Fresh policy sample r cs)
    (hu : r.Unfailed session) (hl : session.level = .error)
    (hends : ∀ c ∈ cs, c.ends session.id = false)
    (hfails : ∀ c ∈ cs, c.failsIn session.id = false) :
    (r.calls policy sample cs).Unfailed (session.during cs) := by
  induction cs generalizing r session with
  | nil => exact hu
  | cons c cs ih =>
    rw [during_cons]
    exact ih (sound_call hr c) hfresh.2
      (unfailed_call hr hfresh.1 hu hl (hends c List.mem_cons_self) (hfails c List.mem_cons_self)).1
      hl (fun d hd => hends d (List.mem_cons_of_mem _ hd))
      fun d hd => hfails d (List.mem_cons_of_mem _ hd)

/-- A held span stays held, and no version of it is handed over, as long as its session neither fails
nor opens another. -/
theorem heldAs_call (hr : r.Sound) (hf : ∀ t, c.started? = some t → r.isRegistered t = false)
    (hu : r.Unfailed session) (hl : session.level = .error)
    (hh : r.HeldAs ⟨session.id, b⟩ status) (hends : c.ends session.id = false)
    (hfails : c.failsIn session.id = false) (hopens : c.opensIn session.id = false)
    (hopen : ∀ ref, c.opened? = some ref → ref.spanId ≠ b) :
    (r.call policy sample c).1.HeldAs ⟨session.id, b⟩
        ((c.outcome? ⟨session.id, b⟩).elim status Outcome.status) ∧
      ∀ x ∈ (r.call policy sample c).2, x.id ≠ b := by
  have hconf : (r.call policy sample c).1.Confines b session.id ∧
      ∀ x ∈ (r.call policy sample c).2, c.isOf session.id = false → x.id ≠ b :=
    confines_call hr hh.confined fun ref ho hb => absurd hb (hopen ref ho)
  rcases hu.cases hl policy sample hr hf with ⟨hof, hfolder⟩ | ⟨hook, h, rfl, hs, ht, -, heff⟩
  · refine ⟨⟨hconf.1, ?_⟩, fun x hx => hconf.2 x hx hof⟩
    rw [Call.outcome?_of_not_isOf hof, hfolder]
    exact hh.folder
  · have hnone : hook.opened? = none := by
      cases ho : hook.opened? with
      | none => rfl
      | some ref =>
        have : (Call.hook hook).opensIn session.id = true := Call.opensIn_iff.2
          ⟨ref.spanId, by rw [← hs, Hook.sessionId_of_opened? ho]; exact ho⟩
        exact absurd (this.symm.trans hopens) (by decide)
    obtain ⟨-, hnil⟩ := heff.unfailed hs hends hfails ht hu.bare
    refine ⟨⟨hconf.1, ?_⟩, fun x hx => ?_⟩
    · exact heff.heldAs hs hends hfails hnone hu.runs.isOpen hu.bare hh.folder
    · rw [hnil] at hx
      exact absurd hx List.not_mem_nil

/-- **A held span** stays held, with the status last reported for it. -/
theorem heldAs_calls (cs : List Call) (hr : r.Sound) (hfresh : Fresh policy sample r cs)
    (hu : r.Unfailed session) (hl : session.level = .error)
    (hh : r.HeldAs ⟨session.id, b⟩ status) (hends : ∀ c ∈ cs, c.ends session.id = false)
    (hquiet : ∀ c ∈ cs, c.failsIn session.id = false ∧ c.opensIn session.id = false)
    (hopen : ∀ c ∈ cs, ∀ ref, c.opened? = some ref → ref.spanId ≠ b) :
    (r.calls policy sample cs).HeldAs ⟨session.id, b⟩ (reported ⟨session.id, b⟩ cs status) ∧
      ∀ x ∈ r.handed policy sample cs, x.id ≠ b := by
  induction cs generalizing r session status with
  | nil => exact ⟨hh, fun _ hx => absurd hx List.not_mem_nil⟩
  | cons c cs ih =>
    obtain ⟨hfails, hopens⟩ := hquiet c List.mem_cons_self
    have hend := hends c List.mem_cons_self
    obtain ⟨hh₁, hx₁⟩ := heldAs_call hr hfresh.1 hu hl hh hend hfails hopens
      (hopen c List.mem_cons_self)
    have hu₁ : (r.call policy sample c).1.Unfailed (session.during [c]) :=
      (unfailed_call hr hfresh.1 hu hl hend hfails).1
    obtain ⟨hh₂, hx₂⟩ := ih (sound_call hr c) hfresh.2 hu₁ hl hh₁
      (fun d hd => hends d (List.mem_cons_of_mem _ hd))
      (fun d hd => hquiet d (List.mem_cons_of_mem _ hd))
      fun d hd => hopen d (List.mem_cons_of_mem _ hd)
    rw [reported_cons]
    refine ⟨hh₂, fun x hx => ?_⟩
    rcases List.mem_append.1 hx with hx | hx
    · exact hx₁ x hx
    · exact hx₂ x hx

/-! ### Opening a span -/

theorem open_unfailed (policy : Policy) (sample : UInt64 → Bool) (hr : r.Sound)
    (hu : r.Unfailed session) (hl : session.level = .error) (b : String) (e : Element)
    (p : Option ParentHint) (m : Snapshot) (now : Timestamp) :
    (∃ x, x.id = b ∧ x.status = .inProgress ∧
      ((r.call policy sample (.hook (.before session.id b e p m now))).1.folder session.id).kept =
        [x] ∧
      ((r.call policy sample (.hook (.before session.id b e p m now))).1.folder session.id).slot =
        some x) ∧
      (r.call policy sample (.hook (.before session.id b e p m now))).2 = [] := by
  obtain ⟨h', htrack, heff⟩ := open_cases policy sample hr hu.runs b e p m now
  have hlast : h'.tracking = .lastOnly := by
    rw [htrack, hl]
    rfl
  generalize (r.call policy sample (.hook (.before session.id b e p m now))).1.folder session.id = f'
    at heff ⊢
  generalize (r.call policy sample (.hook (.before session.id b e p m now))).2 = spans at heff ⊢
  cases heff with
  | late hb => cases hb
  | skipped hn | cached hn | cachedLate hn => exact absurd (hlast.symm.trans hn) (by decide)
  | heldLate _ hc => exact absurd (hu.runs.isOpen.symm.trans hc) (by decide)
  | held =>
    refine ⟨⟨h'.spanIn (r.folder session.id) session.id b e p m now, rfl, rfl, ?_, rfl⟩, rfl⟩
    have hcached : (r.folder session.id).cached = [] := by
      rw [Folder.cached, hu.bare]
      rfl
    exact congrArg (_ :: ·) hcached

theorem unfailed_open (policy : Policy) (sample : UInt64 → Bool) (hr : r.Sound)
    (hu : r.Unfailed session) (hl : session.level = .error) (b : String) (e : Element)
    (p : Option ParentHint) (m : Snapshot) (now : Timestamp) :
    (r.call policy sample (.hook (.before session.id b e p m now))).1.Unfailed session := by
  have h : (r.call policy sample (.hook (.before session.id b e p m now))).1.Unfailed
      (session.during [.hook (.before session.id b e p m now)]) :=
    (unfailed_call hr (fun _ hs => by cases hs) hu hl rfl rfl).1
  rw [during_of_none rfl] at h
  exact h

theorem heldAs_open (policy : Policy) (sample : UInt64 → Bool) (hr : r.Sound)
    (hu : r.Unfailed session) (hl : session.level = .error) (hb : r.Lacks b) (e : Element)
    (p : Option ParentHint) (m : Snapshot) (now : Timestamp) :
    (r.call policy sample (.hook (.before session.id b e p m now))).1.HeldAs ⟨session.id, b⟩
      .inProgress := by
  obtain ⟨⟨x, hid, hst, -, hslot⟩, -⟩ := open_unfailed policy sample hr hu hl b e p m now
  exact ⟨confines_open policy sample hr hb session.id e p m now, x, hslot, hid, hst⟩

/-- A held span is lost when its session opens another. -/
theorem lacks_open_other (policy : Policy) (sample : UInt64 → Bool) (hr : r.Sound)
    (hu : r.Unfailed session) (hl : session.level = .error) (hb : r.Confines b session.id)
    {b' : String} (hne : b' ≠ b) (e : Element) (p : Option ParentHint) (m : Snapshot)
    (now : Timestamp) :
    (r.call policy sample (.hook (.before session.id b' e p m now))).1.Lacks b := by
  obtain ⟨⟨x, rfl, -, hkept, -⟩, -⟩ := open_unfailed policy sample hr hu hl b' e p m now
  intro t y hy
  by_cases ht : t = session.id
  · rw [ht, hkept] at hy
    rw [List.mem_singleton.1 hy]
    exact hne
  · refine (confines_call hr hb fun ref ho hid => ?_).1 t ht y hy
    cases ho
    exact absurd hid hne

/-! ### Failing -/

/-- **A failure** leaves the session failed, and the span that it held cached. -/
theorem fails_call (hr : r.Sound) (hf : ∀ t, c.started? = some t → r.isRegistered t = false)
    (hu : r.Unfailed session) (hl : session.level = .error) (hfails : c.failsIn session.id = true) :
    (r.call policy sample c).1.Runs (session.during [c]) true ∧
      ∀ b status, r.HeldAs ⟨session.id, b⟩ status →
        (r.call policy sample c).1.CachedAs ⟨session.id, b⟩
          ((c.outcome? ⟨session.id, b⟩).elim status Outcome.status) := by
  rcases hu.cases hl policy sample hr hf with ⟨hof, -⟩ | ⟨hook, h, rfl, hid, -, hlevel, heff⟩
  · exact absurd ((Call.failsIn_of_not_isOf hof).symm.trans hfails) (by decide)
  · obtain ⟨hreg, hcached⟩ := heff.fails hid hfails hlevel hu.runs.isOpen hu.bare
    -- a call that reports a failure is a hook after an execution
    have hafter : (Call.hook hook).correlation? session.id = none ∧ hook.opened? = none := by
      cases hook with
      | after => exact ⟨rfl, rfl⟩
      | before | finish | correlate => cases hfails
    refine ⟨?_, fun b status hh => ⟨?_, hcached b status hh.folder⟩⟩
    · rw [during_of_none hafter.1]
      exact hreg.trans (congrArg (Option.map _) hu.runs)
    · refine (confines_call hr hh.confined fun ref ho => ?_).1
      have hopened : hook.opened? = some ref := ho
      rw [hafter.2] at hopened
      cases hopened

theorem runs_of_failed {us vs : List Call} (hr : r.Sound)
    (hfresh : Fresh policy sample r (us ++ c :: vs)) (hu : r.Unfailed session)
    (hl : session.level = .error) (hends : ∀ d ∈ us ++ c :: vs, d.ends session.id = false)
    (hquiet : ∀ d ∈ us, d.failsIn session.id = false) (hfails : c.failsIn session.id = true) :
    (r.calls policy sample (us ++ c :: vs)).Runs (session.during (us ++ c :: vs)) true := by
  obtain ⟨hfresh₁, hfresh₂⟩ := fresh_append _ _ hfresh
  have hr₁ : (r.calls policy sample us).Sound := sound_calls us hr
  have hu₁ := unfailed_calls us hr hfresh₁ hu hl
    (fun d hd => hends d (List.mem_append_left _ hd)) hquiet
  obtain ⟨hruns, -⟩ := fails_call hr₁ hfresh₂.1 hu₁ hl hfails
  obtain ⟨failed, hruns', hup, -⟩ := runs_calls vs (sound_call hr₁ c) hfresh₂.2 hruns
    fun d hd => hends d (List.mem_append_right _ (List.mem_cons_of_mem _ hd))
  rw [calls_append, during_append, during_cons _ c vs, ← hup rfl]
  exact hruns'

/-! ### The end of a session -/

/-- A held span is handed over at the end of its session if the session fails only then. -/
theorem finish_heldAs (policy : Policy) (sample : UInt64 → Bool) (hr : r.Sound)
    (hu : r.Unfailed session) (hl : session.level = .error)
    (hh : r.HeldAs ⟨session.id, b⟩ status) (st : Status) (time : Timestamp) (ms : UInt64) :
    if st = .completedWithErrors then
      ∃ x, lastVersion? b (r.call policy sample (.hook (.finish session.id st time ms))).2 = some x ∧
        x.Final ⟨session.id, b⟩ status.settled (session.finish st time ms).stamp
    else (r.call policy sample (.hook (.finish session.id st time ms))).2 = [] := by
  obtain ⟨h', hs, hflag, hspans, -⟩ := finish_cases policy sample hr hu.runs st time ms
  rw [hspans]
  have hfails : h'.failsAtEnd st = decide (st = .completedWithErrors) := by
    rw [HookScope.failsAtEnd, hs, hflag, hl]
    simp
  split
  · rename_i hst
    have hended : h'.ended (r.folder session.id) st = (r.folder session.id).promoted := by
      rw [HookScope.ended, hfails, decide_eq_true hst]
      rfl
    rw [hended]
    exact hh.folder.promoted.finalized (hr.folder _).promoted _
  · rename_i hst
    have hended : h'.ended (r.folder session.id) st = r.folder session.id := by
      rw [HookScope.ended, hfails, decide_eq_false hst]
      rfl
    rw [hended, Folder.cached, hu.bare]
    rfl

end Registry

end SpanRelay

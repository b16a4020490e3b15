import SpanRelay.Proofs.Pipeline.Documents

/-! # The span that fails

Whether the first failure of a session at the level ERROR leaves a document of the span that fails
depends on what the session opened since that span. If nothing, the span is still held, and it is
cached with the exception of the report (`caches_failure`), which stays until it is written
(`lastVersion?_of_innermost`). If another span was opened, the one that fails is not kept any more and
is never written (`lastVersion?_of_enclosing`). -/

namespace SpanRelay

theorem Span.exception_finalize (x : Span) (stamp : Stamp) :
    (x.finalize stamp).exception = x.exception := by
  unfold finalize abandon
  split <;> rfl

namespace Registry

variable {policy : Policy} {sample : UInt64 → Bool} {r : Registry} {session : Session} {b : String}
  {status : Status}

/-- **The held span fails.** It is cached as failed, with the exception that was reported. -/
theorem caches_failure (policy : Policy) (sample : UInt64 → Bool) (hr : r.Sound)
    (hu : r.Unfailed session) (hl : session.level = .error)
    (hh : r.HeldAs ⟨session.id, b⟩ status) (m : Snapshot) (exception : ExceptionSummary)
    (now : Timestamp) :
    ∃ x, (r.call policy sample
        (.hook (.after ⟨session.id, b⟩ m (.failure exception) now))).1.Caches ⟨session.id, b⟩ x ∧
      x.status = .completedWithErrors ∧ x.exception = some exception := by
  have hconf : (r.call policy sample
      (.hook (.after ⟨session.id, b⟩ m (.failure exception) now))).1.Confines b session.id :=
    (confines_call hr hh.confined fun ref ho => by cases ho).1
  obtain ⟨y, hy, hyb, -⟩ := hh.folder
  dsimp only at hy hyb hconf
  rcases hu.cases hl policy sample hr
      (c := .hook (.after ⟨session.id, b⟩ m (.failure exception) now)) nofun with
    ⟨hof, -⟩ | ⟨hook, h, hc, -, -, -, heff⟩
  · exact absurd (decide_eq_false_iff_not.1 hof) fun hn => hn rfl
  cases hc
  generalize r.call policy sample
    (.hook (.after ⟨session.id, b⟩ m (.failure exception) now)) = result at heff hconf ⊢
  have hfolder : result.1.folder session.id =
      (r.folder session.id).free.fail.cache (h.completed m (.failure exception) now y) := by
    generalize result.1.folder session.id = f' at heff ⊢
    generalize result.2 = spans at heff
    cases heff with
    | late _ hc => exact absurd (hu.runs.isOpen.symm.trans hc) (by decide)
    | completed _ hx =>
      rw [Folder.get?_of_bare hu.bare] at hx
      cases hx
    | completedHeld _ _ hf => cases hf
    | failedHeld _ _ _ hs =>
      rw [hy] at hs
      cases hs
      rfl
    | failedLost _ _ _ hs | failedUnkept _ _ _ hs => exact absurd hyb (hs y hy)
  refine ⟨h.completed m (.failure exception) now y, ⟨hconf, ?_, ?_⟩, rfl, rfl⟩
  · rw [hfolder, Folder.get?_cache]
    exact if_pos hyb.symm
  · rw [hfolder]
    exact fun _ hn => by cases hn

end Registry

namespace SessionRun

variable {run : SessionRun} {policy : Policy} {sample : UInt64 → Bool} {r : Registry} {b : String}
  {c : Call} {u w v after : List Call} {m : Snapshot} {exception : ExceptionSummary}
  {now : Timestamp}

/-- **A span that fails while it is the latest** is handed over last as failed, with the exception
that was reported, if its end is not reported again. -/
theorem Begun.lastVersion?_of_innermost (h : run.Begun policy sample r after)
    (hl : run.level policy = .error)
    (hsplit : run.during =
      u ++ c :: (w ++ .hook (.after ⟨run.id, b⟩ m (.failure exception) now) :: v))
    (ho : c.opened? = some ⟨run.id, b⟩) (hu : ∀ d ∈ u, d.failsIn run.id = false)
    (hw : ∀ d ∈ w, d.failsIn run.id = false ∧ d.opensIn run.id = false)
    (hv : ∀ d ∈ v, d.outcome? ⟨run.id, b⟩ = none) :
    ∃ x, lastVersion? b (r.handed policy sample (run.during ++ run.ending :: after)) = some x ∧
      x.Final ⟨run.id, b⟩ .completedWithErrors (run.final policy sample).stamp ∧
      x.exception = some exception := by
  obtain ⟨hfresh, hends, hopening, hlast⟩ := h.opening_of_split hsplit ho
  have hunfailed := Registry.unfailed_calls u h.sound hfresh ⟨h.runs, h.bare⟩ hl hends hu
  obtain ⟨r', hr', hu', hh', hfresh', hlast'⟩ := hopening.stays hunfailed hl rfl hw
  have hgoes := hopening.goesOn
  have hapart := hopening.apart
  have hfinal := hopening.final
  rw [during_append, during_cons] at hfinal
  obtain ⟨x, hx, hst, hex⟩ := Registry.caches_failure policy sample hr' hu' hl hh' m exception now
  have hfails : (Call.hook (.after ⟨run.id, b⟩ m (.failure exception) now)).failsIn run.id = true :=
    Call.failsIn_after rfl rfl
  obtain ⟨hruns, -⟩ := Registry.fails_call hr' hfresh'.1 hu' hl hfails
  -- what is left to be called is the rest of the run, its end, and what comes after the run
  have hr'' : (r'.call policy sample
      (.hook (.after ⟨run.id, b⟩ m (.failure exception) now))).1.Sound := Registry.sound_call hr' _
  have hv' : ∀ d ∈ v, d ∈ w ++ .hook (.after ⟨run.id, b⟩ m (.failure exception) now) :: v :=
    fun d hd => List.mem_append_right _ (List.mem_cons_of_mem _ hd)
  have hcaches := Registry.caches_calls v hr''
    (Registry.fresh_append _ _ hfresh'.2).1 hx (fun d hd => hgoes d (hv' d hd))
    (fun d hd => hapart d (List.mem_append_left _ (hv' d hd))) hv
  have hfinalized := Registry.lastVersion?_of_caches policy sample hr'' hruns hfresh'.2
    (fun d hd => hgoes d (hv' d hd)) (fun d hd => hapart d (List.mem_append_right _ hd)) hcaches
  have hform := hcaches.folder.final ((Registry.sound_calls v hr'').folder _)
    (run.final policy sample).stamp
  rw [hst] at hform
  refine ⟨x.finalize (run.final policy sample).stamp, ?_, hform,
    (x.exception_finalize _).trans hex⟩
  rw [hlast, hlast', remaining, List.cons_append, Registry.handed, lastVersion?_append, ← hfinal]
  exact congrArg (Option.or · _) hfinalized

/-- **A span that fails when it is not the latest** is not handed over, if it is the first that
fails. -/
theorem Begun.lastVersion?_of_enclosing (h : run.Begun policy sample r after)
    (hl : run.level policy = .error) (hsplit : run.during = u ++ c :: (w ++ v))
    (ho : c.opened? = some ⟨run.id, b⟩) (hu : ∀ d ∈ u, d.failsIn run.id = false)
    (hw : ∀ d ∈ w, d.failsIn run.id = false) (hopens : ∃ d ∈ w, d.opensIn run.id = true) :
    lastVersion? b (r.handed policy sample (run.during ++ run.ending :: after)) = none := by
  obtain ⟨hfresh, hends, hopening, hlast⟩ := h.opening_of_split hsplit ho
  have hunfailed := Registry.unfailed_calls u h.sound hfresh ⟨h.runs, h.bare⟩ hl hends hu
  rcases forall_or_first (Call.opensIn run.id) w with hnone | ⟨w₁, d, w₂, rfl, hw₁, hd⟩
  · obtain ⟨d, hd, hopen⟩ := hopens
    exact absurd ((hnone d hd).symm.trans hopen) (by decide)
  · rw [hlast]
    refine hopening.lastVersion?_of_other (u := w₁) (d := d) (v := w₂ ++ v) hunfailed hl (by simp)
      (fun e he => ⟨hw e (List.mem_append_left _ he), hw₁ e he⟩) hd

end SessionRun

/-- **The span that fails first.** In an undisturbed run, let the first failure of a session at the
level ERROR be that of a span of this session, and the only report of its end. If the session has
opened no span since that one, the store holds its document as failed, with the exception that was
reported; else it holds no document of it. -/
theorem failing_span_document_iff_innermost {σ β : Type} {sink : Sink σ} {v : StoreView σ β}
    {config : Config} {policy : Policy} {store : σ} {p : Pipeline σ} {hs : List Happening}
    (h : Undisturbed sink v config policy store p hs) :
    let stored := v.content ((p.happens sink hs).finalStore sink)
    let sample := isSampled config.samplingProbability
    ∀ run : SessionRun, run.Within (hs.filterMap Happening.call?) → run.level policy = .error →
      ∀ past opening between later b m exception now,
        run.during = past ++ opening ::
          (between ++ .hook (.after ⟨run.id, b⟩ m (.failure exception) now) :: later) →
        opening.opened? = some ⟨run.id, b⟩ →
        (∀ c ∈ past ++ between, c.failsIn run.id = false) →
        (∀ c ∈ between ++ later, c.outcome? ⟨run.id, b⟩ = none) →
        if ∀ c ∈ between, c.opensIn run.id = false then
          ∃ x : Span, stored b = some (v.shown x) ∧
            x.Final ⟨run.id, b⟩ .completedWithErrors (run.final policy sample).stamp ∧
            x.exception = some exception
        else stored b = none := by
  intro stored sample run hrun hl past opening between later b m exception now hsplit ho hquiet honly
  obtain ⟨r, after, hbegun, hlast⟩ := hrun.begun h.proper (by rw [hl]; decide)
  have hb : b ∈ run.opened := mem_openedOn.2 ⟨opening, by simp [hsplit], ho⟩
  have hpast : ∀ c ∈ past, c.failsIn run.id = false := fun c hc =>
    hquiet c (List.mem_append_left _ hc)
  have hbetween : ∀ c ∈ between, c.failsIn run.id = false := fun c hc =>
    hquiet c (List.mem_append_right _ hc)
  split
  · rename_i hinner
    obtain ⟨x, hx, hfinal, hex⟩ := hbegun.lastVersion?_of_innermost hl hsplit ho hpast
      (fun c hc => ⟨hbetween c hc, hinner c hc⟩) fun c hc => honly c (List.mem_append_right _ hc)
    refine ⟨x, ?_, hfinal, hex⟩
    rw [← hlast b hb] at hx
    exact (h.content_eq b).trans (congrArg (Option.map v.shown) hx)
  · rename_i hinner
    have hopens : ∃ c ∈ between, c.opensIn run.id = true := by
      simpa using hinner
    have hnone := hbegun.lastVersion?_of_enclosing hl hsplit ho hpast hbetween hopens
    rw [← hlast b hb] at hnone
    exact h.content_eq_none hnone

/-- Before the span that fails two others are opened, of which one ends before it is opened and one while
it is open, and another one is opened after it has failed. -/
theorem failing_span_document_of_four :
    let hooks : List Hook := [.bareBefore "a", .bareBefore "b", .bareAfter "b" .success, .bareBefore "f",
      .bareAfter "a" .success, .bareAfter "f" (.failure ⟨"E", "m", none⟩), .bareBefore "c",
      .bareAfter "c" .success]
    let p := Pipeline.shelved (StaticPolicy.of .error).toPolicy
    ∃ x : Span, StoreView.shelf.content
        ((p.happens .shelf ((SessionRun.bare hooks).calls.map .call)).finalStore .shelf) "f" =
          some (.ofSpan x) ∧
      x.status = .completedWithErrors ∧ x.exception = some ⟨"E", "m", none⟩ := by
  intro hooks p
  have h := undisturbed_bare (StaticPolicy.of .error).toPolicy hooks (by decide) (by decide +kernel)
  have hall := failing_span_document_iff_innermost h
  rw [filterMap_call] at hall
  have hrun := hall (.bare hooks) (SessionRun.within_bare (by decide)) rfl
    ((hooks.take 3).map .hook) (.hook (.bareBefore "f")) [.hook (.bareAfter "a" .success)]
    ((hooks.drop 6).map .hook) "f" _ _ _ rfl rfl (by decide) (by decide)
  rw [if_pos (by decide)] at hrun
  obtain ⟨x, hx, hfinal, hex⟩ := hrun
  exact ⟨x, hx, hfinal.status, hex⟩

/-- Of two spans of a session at the level ERROR the inner one ends well and then the outer one
fails. All that is written is the inner one. -/
theorem enclosing_failure_not_written :
    let hooks : List Hook := [.bareBefore "a", .bareBefore "b", .bareAfter "b" .success,
      .bareAfter "a" (.failure ⟨"E", "m", none⟩)]
    let p := Pipeline.shelved (StaticPolicy.of .error).toPolicy
    let store := (p.happens .shelf ((SessionRun.bare hooks).calls.map .call)).finalStore .shelf
    Undisturbed .shelf .shelf .default (StaticPolicy.of .error).toPolicy [] p
        ((SessionRun.bare hooks).calls.map .call) ∧
      StoreView.shelf.content store "a" = none ∧ store ≠ [] := by
  intro hooks p store
  refine ⟨undisturbed_bare (StaticPolicy.of .error).toPolicy hooks (by decide) (by decide +kernel),
    ?_, ?_⟩
  · decide +kernel
  · decide +kernel

end SpanRelay

import SpanRelay.Proofs.Pipeline.Finished
import SpanRelay.Proofs.Session.Outcomes

/-! # Outcomes in a run

Whatever is handed over tells the outcomes that were reported for it up to then (`reports_handed`). The
exception is that of the last failure, and an outcome that is reported later leaves it where it is: so
a span that succeeds after all is written with the exception of a failure before
(`exception_outlives_failure`). -/

namespace SpanRelay

/-- **What is handed over** tells the outcomes that were reported for it since it was opened. -/
theorem Registry.reports_handed (policy : Policy) (sample : UInt64 → Bool) {cs : List Call}
    (hd : (openedIds cs).Nodup) {x : Span} (hx : x ∈ empty.handed policy sample cs) :
    ∃ before c since after, cs = before ++ c :: since ++ after ∧ c.opened? = some x.ref ∧
      x.Told (since.filterMap (Call.outcome? x.ref)) := by
  obtain ⟨past, c, rest, rfl, hcall⟩ := mem_handed_iff.1 hx
  have hsplit : past ++ c :: rest = past ++ [c] ++ rest := by simp
  have hfirst : (openedIds (past ++ [c])).Nodup := by
    rw [hsplit, openedIds_append] at hd
    exact (List.nodup_append.1 hd).1
  have hpast : (openedIds past).Nodup := by
    rw [openedIds_append] at hfirst
    exact (List.nodup_append.1 hfirst).1
  have hkept : (empty.calls policy sample past).Reports ([] ++ past) :=
    reports_calls past sound_empty hpast reports_empty
  obtain ⟨before, d, since, hbefore, ho, htold⟩ :=
    (reports_call (sound_calls past sound_empty) c hfirst hkept).2 x hcall
  exact ⟨before, d, since, rest, by rw [hsplit, hbefore], ho, htold⟩

/-- **An exception remains** with a status that is not that of a failure if and only if a failure was
reported and something else last. So it is with a span that was opened and changed in any way, and, if
spans are opened with distinct ids, with whatever a run of a pipeline hands over: the outcomes are
those reported for the span since it was opened. Every document that the store is sent, up to the end
of the shutdown, is that of a span handed over. -/
theorem exception_remains_iff_recovers {σ : Type} (sink : Sink σ) (config : Config) (policy : Policy)
    (store : σ) (hs : List Happening) (hd : (openedIds (hs.filterMap Happening.call?)).Nodup) :
    let p := Pipeline.noting config policy store
    (∀ id sessionId element parentId started stamp changes,
      let x := (Span.opened id sessionId element parentId started stamp).changes changes
      let os := changes.filterMap Span.Change.outcome?
      x.Told os ∧ ((x.exception.isSome ∧ x.status ≠ .completedWithErrors) ↔ Recovers os)) ∧
    (∀ x ∈ p.handed hs, ∃ before c since after,
      hs.filterMap Happening.call? = before ++ c :: since ++ after ∧ c.opened? = some x.ref ∧
      let os := since.filterMap (Call.outcome? x.ref)
      x.Told os ∧ ((x.exception.isSome ∧ x.status ≠ .completedWithErrors) ↔ Recovers os)) ∧
    ∀ d ∈ ((p.happens sink.noted hs).finalStore sink.noted).2, ∃ x ∈ p.handed hs, d = .ofSpan x := by
  refine ⟨fun id sessionId element parentId started stamp changes => ?_, fun x hx => ?_,
    fun _ => Pipeline.mem_handed_of_noted⟩
  · have htold := (Span.Told.opened id sessionId element parentId started stamp).changes changes
    exact ⟨htold, htold.exception_without_errors_iff⟩
  · obtain ⟨before, c, since, after, hsplit, ho, htold⟩ :=
      Registry.reports_handed policy (isSampled config.samplingProbability) hd hx
    exact ⟨before, c, since, after, hsplit, ho, htold, htold.exception_without_errors_iff⟩

/-- A span that fails and then succeeds. -/
theorem exception_remains_iff_recovers_retried :
    let p := Pipeline.noting .default (StaticPolicy.of .debug).toPolicy ([] : List Document)
    let hs : List Happening := ((.start (.bare "s") 0) ::
      [Hook.bareBefore "a", .bareAfter "a" (.failure ⟨"E", "m", none⟩), .bareAfter "a" .success].map
        Call.hook).map .call
    (openedIds (hs.filterMap Happening.call?)).Nodup ∧
      ∀ x ∈ p.handed hs, ∃ before c since after,
        hs.filterMap Happening.call? = before ++ c :: since ++ after ∧ c.opened? = some x.ref ∧
        x.Told (since.filterMap (Call.outcome? x.ref)) := by
  intro p hs
  have hd : (openedIds (hs.filterMap Happening.call?)).Nodup := by decide
  obtain ⟨-, hhanded, -⟩ := exception_remains_iff_recovers Sink.shelf .default
    (StaticPolicy.of .debug).toPolicy [] hs hd
  refine ⟨hd, fun x hx => ?_⟩
  obtain ⟨before, c, since, after, hsplit, ho, htold, -⟩ := hhanded x hx
  exact ⟨before, c, since, after, hsplit, ho, htold⟩

/-- The document of a span that failed, and was then reported to have succeeded. -/
theorem exception_outlives_failure :
    let hooks : List Hook :=
      [.bareBefore "a", .bareAfter "a" (.failure ⟨"E", "m", none⟩), .bareAfter "a" .success]
    let p := Pipeline.shelved (StaticPolicy.of .debug).toPolicy
    let stored := StoreView.shelf.content
      ((p.happens .shelf ((SessionRun.bare hooks).calls.map .call)).finalStore .shelf)
    ∃ x : Span, stored "a" = some (.ofSpan x) ∧ x.status = .completedNormally ∧
      x.exception = some ⟨"E", "m", none⟩ := by
  intro hooks p stored
  have h := undisturbed_bare (StaticPolicy.of .debug).toPolicy hooks (by decide) (by decide +kernel)
  have hlast : (lastVersion? "a" (Registry.empty.handed (StaticPolicy.of .debug).toPolicy
      (isSampled Config.default.samplingProbability) (SessionRun.bare hooks).calls)).map
        (fun x => (x.status, x.exception)) = some (.completedNormally, some ⟨"E", "m", none⟩) := by
    decide +kernel
  obtain ⟨x, hx, hfields⟩ := Option.map_eq_some_iff.1 hlast
  obtain ⟨hstatus, hexception⟩ := Prod.mk.inj hfields
  refine ⟨x, ?_, hstatus, hexception⟩
  have hstored := h.content_eq "a"
  rw [filterMap_call, hx] at hstored
  exact hstored

end SpanRelay

import SpanRelay.Proofs.Pipeline.Documents
import SpanRelay.Proofs.Session.Tree

/-! # Trees of documents

What the store holds of a fully tracked session is a forest: the parent of each document is that of
another span of the session, which was opened before (`stored_span_trees`). -/

namespace SpanRelay

/-- **Stored spans are trees.** After an undisturbed run every document in the store is that of a span
opened in a session that has ended, or in one that still goes on. Of each sampled session at the level INFO
or DEBUG that was started and finished, the store holds a document for each span opened in between, whatever
parents were hinted at. It belongs to the session, and its parent, if it has one, is the id of a span
that was opened earlier in this session, which the store holds too. -/
theorem stored_span_trees {σ β : Type} {sink : Sink σ} {v : StoreView σ β} {config : Config}
    {policy : Policy} {store : σ} {p : Pipeline σ} {hs : List Happening}
    (h : Undisturbed sink v config policy store p hs) :
    let stored := v.content ((p.happens sink hs).finalStore sink)
    let calls := hs.filterMap Happening.call?
    let sample := isSampled config.samplingProbability
    (∀ id a, stored id = some a → ∃ x : Span, a = v.shown x ∧ x.id = id ∧
      ((∃ run : SessionRun, run.Within calls ∧ run.id = x.sessionId ∧ id ∈ run.opened) ∨
        Ongoing calls x.sessionId)) ∧
    ∀ run : SessionRun, run.Within calls →
      run.level policy = .info ∨ run.level policy = .debug → sample run.draw = true →
      run.opened.Nodup ∧ ∀ earlier b later, run.opened = earlier ++ b :: later →
        ∃ x : Span, stored b = some (v.shown x) ∧ x.id = b ∧ x.sessionId = run.id ∧
          ∀ q, x.parentId = some q → q ∈ earlier ∧
            ∃ y : Span, stored q = some (v.shown y) ∧ y.id = q ∧ y.sessionId = run.id := by
  intro stored calls sample
  refine ⟨fun id a ha => ?_, fun run hrun hl hsampled => ?_⟩
  · obtain ⟨x, hx, hid, hopened⟩ := h.openedIn_of_content ha
    exact ⟨x, hx, hid, hopened.exists_run⟩
  obtain ⟨hnodup, hparent⟩ := hrun.lastVersion?_parent h.proper hl hsampled
  have hstored : ∀ earlier b later, run.opened = earlier ++ b :: later →
      ∃ x : Span, stored b = some (v.shown x) ∧ x.id = b ∧ x.sessionId = run.id ∧
        ∀ q, x.parentId = some q → q ∈ earlier := by
    intro earlier b later hb
    obtain ⟨x, hx, hx'⟩ := hparent earlier b later hb
    exact ⟨x, (h.content_eq b).trans (congrArg (Option.map v.shown) hx), hx'⟩
  refine ⟨hnodup, fun earlier b later hb => ?_⟩
  obtain ⟨x, hx, hid, hsession, hq⟩ := hstored earlier b later hb
  refine ⟨x, hx, hid, hsession, fun q hxq => ⟨hq q hxq, ?_⟩⟩
  -- the parent is a span of the session, so the same is known of it
  have hmem : q ∈ run.opened := by
    rw [hb]
    exact List.mem_append_left _ (hq q hxq)
  obtain ⟨earlier', later', hsplit⟩ := List.append_of_mem hmem
  obtain ⟨y, hy, hyid, hysession, -⟩ := hstored earlier' q later' hsplit
  exact ⟨y, hy, hyid, hysession⟩

/-- A step that is open twice, the second time in a branch of the first, and three children: one of
the branch, one of the step that is still open, which belongs to the branch as well, and one of a step
that is not known. -/
theorem stored_span_trees_shelf :
    let now := (SessionStart.bare "s").startedAt
    let step (branch : Option String) : Element := ⟨"step", "Step", "script", none, branch⟩
    let child : Element := ⟨"child", "Child", "script", none, none⟩
    let hooks : List Hook := [.bareBefore "a",
      .before "s" "b" (step (some "1")) (some (.plain "step")) .empty now,
      .before "s" "c" child (some ⟨"step", some "1", false⟩) .empty now,
      .before "s" "d" child (some ⟨"step", none, true⟩) .empty now,
      .before "s" "e" child (some (.plain "else")) .empty now]
    let p := Pipeline.shelved (StaticPolicy.of .debug).toPolicy
    let stored := StoreView.shelf.content
      ((p.happens .shelf ((SessionRun.bare hooks).calls.map .call)).finalStore .shelf)
    (∃ x : Span, stored "e" = some (.ofSpan x) ∧ x.id = "e" ∧ x.sessionId = "s") ∧
    ∃ x y : Span, stored "d" = some (.ofSpan x) ∧ x.parentId = some "b" ∧
      stored "b" = some (.ofSpan y) ∧ y.id = "b" ∧ y.sessionId = "s" := by
  intro now step child hooks p stored
  have h := undisturbed_bare (StaticPolicy.of .debug).toPolicy hooks (by decide) (by decide +kernel)
  obtain ⟨-, hall⟩ := stored_span_trees h
  have hd := h.content_eq "d"
  rw [filterMap_call] at hall hd
  obtain ⟨-, htree⟩ := hall (.bare hooks) (SessionRun.within_bare (by decide)) (Or.inr rfl)
    (by decide +kernel)
  obtain ⟨z, hz, hzid, hzsession, -⟩ := htree ["a", "b", "c", "d"] "e" [] (by decide)
  have hlast : (lastVersion? "d" (Registry.empty.handed (StaticPolicy.of .debug).toPolicy
      (isSampled Config.default.samplingProbability) (SessionRun.bare hooks).calls)).map
        Span.parentId = some (some "b") := by
    decide +kernel
  obtain ⟨x, hx, hparent⟩ := Option.map_eq_some_iff.1 hlast
  rw [hx] at hd
  obtain ⟨y, hy, hid, hsession, -⟩ := htree ["a"] "b" ["c", "d", "e"] (by decide)
  exact ⟨⟨z, hz, hzid, hzsession⟩, x, y, hd, hparent, hy, hid, hsession⟩

end SpanRelay
